import PushReceiver.HeaderAgreement

set_option autoImplicit false

namespace PushReceiver

def Blank (text : Bytes) : Prop := ∀ c ∈ text, isSpace c = true

def NameText (text : Bytes) : Prop := text ≠ [] ∧ ∀ c ∈ text, isValidPairName c = true

-- A value stands bare, or in quotes, where it may be padded.
inductive ValueText : Bytes → Bytes → Prop where
  | bare (value : Bytes) (present : value ≠ []) (chars : ∀ c ∈ value, isValidPairValue c = true) : ValueText value value
  | quoted (value : Bytes) (present : value ≠ []) (chars : ∀ c ∈ value, isValidQuotedPairValue c = true) :
      ValueText value (34 :: (value ++ [34]))

inductive PairText : HeaderPair → Bytes → Prop where
  | pair (before name between after value text behind : Bytes) (blankBefore : Blank before) (nameText : NameText name)
      (blankBetween : Blank between) (blankAfter : Blank after) (valueText : ValueText value text) (blankBehind : Blank behind) :
      PairText ⟨name, value⟩ (before ++ (name ++ (between ++ 61 :: (after ++ (text ++ behind)))))

inductive Separated {A : Type} (separator : UInt8) (Item : A → Bytes → Prop) : List A → Bytes → Prop where
  | last (item : A) (text : Bytes) (itemText : Item item text) : Separated separator Item [item] text
  | next (item : A) (text : Bytes) (items : List A) (rest : Bytes) (itemText : Item item text)
      (others : Separated separator Item items rest) :
      Separated separator Item (item :: items) (text ++ separator :: rest)

-- Pairs separated by semicolons; the list of a parameter has the last of them first.
def ParamText (param : HeaderParam) (text : Bytes) : Prop := Separated 59 PairText param.reverse text

-- Parameters separated by commas.
def HeaderText (params : List HeaderParam) (header : Bytes) : Prop := Separated 44 ParamText params header

-- The rest of a header brings the loop to its end with these parameters.
def Finishes (parser : HeaderParser) (rest : Bytes) (params : List HeaderParam) : Prop :=
  ∃ final, headerRun parser rest = some final ∧ (final.state = .endValue ∨ final.state = .value) ∧ final.params.reverse = params

theorem finish_nil (parser : HeaderParser) (params : List HeaderParam) :
    Finishes parser [] params ↔ (parser.state = .endValue ∨ parser.state = .value) ∧ parser.params.reverse = params := by
  simp [Finishes, headerRun]

theorem finish_cons (parser : HeaderParser) (c : UInt8) (rest : Bytes) (params : List HeaderParam) :
    Finishes parser (c :: rest) params ↔
      ∃ next, headerConsume headerIterations parser c = some next ∧ Finishes next rest params := by
  simp only [Finishes, headerRun, Option.bind_eq_some_iff]
  constructor
  · rintro ⟨final, ⟨next, consumed, run⟩, ends⟩
    exact ⟨next, consumed, final, run, ends⟩
  · rintro ⟨next, consumed, final, run, ends⟩
    exact ⟨final, ⟨next, consumed, run⟩, ends⟩

theorem extra_space (parser : HeaderParser) :
    parser.state ≠ .endValue → ((headerParse parser 32).1.state = .endValue ↔ parser.state = .value) ∧
      (parser.state = .value → (headerParse parser 32).1.params = parser.params) := by
  obtain ⟨state, params⟩ := parser
  cases state <;> simp [headerParse, isSpace, isValidPairName, isValidPairValue, isValidQuotedPairValue, HeaderParser.invalid]

theorem extracted_finishes (header : Bytes) (params : List HeaderParam) :
    headerExtractParams header = some params ↔ Finishes ⟨.beginParam, []⟩ header params := by
  rw [headerExtractParams, Finishes]
  cases run : headerRun ⟨.beginParam, []⟩ header with
  | none => simp
  | some final =>
      simp only [Option.some.injEq, exists_eq_left']
      by_cases ended : final.state = .endValue
      · simp [ended]
      · obtain ⟨ends, kept⟩ := extra_space final ended
        simp only [ends, ended, false_or]
        by_cases value : final.state = .value
        · simp [value, kept value]
        · simp [value]

-- A run of characters that a state takes one by one.
theorem finish_more (state : Bytes → HeaderParser) (valid : UInt8 → Bool)
    (reads : ∀ text c, valid c = true → headerConsume headerIterations (state text) c = some (state (text ++ [c])))
    (text more rest : Bytes) (chars : ∀ c ∈ more, valid c = true) (params : List HeaderParam) :
    Finishes (state text) (more ++ rest) params ↔ Finishes (state (text ++ more)) rest params := by
  induction more generalizing text with
  | nil => rw [List.nil_append, List.append_nil]
  | cons c later ih =>
      rw [List.cons_append, finish_cons, reads text c (chars c List.mem_cons_self)]
      simp only [Option.some.injEq, exists_eq_left']
      rw [ih (text ++ [c]) fun d member => chars d (List.mem_cons_of_mem c member), List.append_assoc]
      rfl

theorem span (valid : UInt8 → Bool) (rest : Bytes) :
    ∃ more later, rest = more ++ later ∧ (∀ c ∈ more, valid c = true) ∧
      (later = [] ∨ ∃ c tail, later = c :: tail ∧ valid c = false) := by
  refine ⟨rest.takeWhile valid, rest.dropWhile valid, List.takeWhile_append_dropWhile.symm, ?_, ?_⟩
  · intro c member
    exact List.mem_takeWhile_imp member
  · cases left : rest.dropWhile valid with
    | nil => exact .inl rfl
    | cons c tail =>
        have stops := List.head?_dropWhile_not valid rest
        rw [left] at stops
        exact .inr ⟨c, tail, rfl, by simpa using stops⟩

theorem finish_blank (parser : HeaderParser)
    (stays : ∀ c, isSpace c = true → headerConsume headerIterations parser c = some parser)
    (blank rest : Bytes) (spaces : Blank blank) (params : List HeaderParam) :
    Finishes parser (blank ++ rest) params ↔ Finishes parser rest params :=
  finish_more (fun _ => parser) isSpace (fun _ => stays) [] blank rest spaces params

theorem space_stays (state : HeaderState) (params : List HeaderParam) (pairs : HeaderParam)
    (skips : state = .endName ∨ state = .beginName ∨ state = .beginValue ∨ state = .endValue) (c : UInt8)
    (space : isSpace c = true) :
    headerConsume headerIterations ⟨state, pairs :: params⟩ c = some ⟨state, pairs :: params⟩ := by
  rcases skips with rfl | rfl | rfl | rfl
  all_goals simp [headerIterations, headerConsume, headerParse, space]

theorem consume_end_value (params : List HeaderParam) (c : UInt8) (fuel : Nat) :
    headerConsume (fuel + 1) ⟨.endValue, params⟩ c =
      if isSpace c then some ⟨.endValue, params⟩
      else if c = 59 then some ⟨.beginName, params⟩
      else if c = 44 then some ⟨.beginParam, params⟩
      else none := by
  rw [headerConsume]
  simp only [headerParse]
  by_cases space : isSpace c = true
  · simp [space]
  · by_cases semicolon : c = 59
    · subst semicolon
      simp [isSpace]
    · by_cases comma : c = 44
      · subst comma
        simp [isSpace]
      · simp [space, semicolon, comma, HeaderParser.invalid]

-- Any other character than one of the value ends it.
theorem consume_value_end (params : List HeaderParam) (c : UInt8) (other : isValidPairValue c = false) :
    headerConsume headerIterations ⟨.value, params⟩ c = headerConsume headerIterations ⟨.endValue, params⟩ c := by
  rw [headerIterations, consume_end_value, headerConsume]
  simp only [headerParse]
  by_cases ends : isSpace c = true ∨ c = 59 ∨ c = 44
  · rw [if_pos ends]
    simp [consume_end_value]
  · rw [if_neg ends, other]
    obtain ⟨space, semicolon, comma⟩ : ¬ isSpace c = true ∧ c ≠ 59 ∧ c ≠ 44 := by simpa using ends
    simp [space, semicolon, comma, HeaderParser.invalid]

theorem consume_quoted (pair : HeaderPair) (pairs : HeaderParam) (params : List HeaderParam) (c : UInt8) :
    headerConsume headerIterations ⟨.quotedValue, (pair :: pairs) :: params⟩ c =
      if isValidQuotedPairValue c then some ⟨.quotedValue, (pair.appendValue c :: pairs) :: params⟩
      else if c = 34 then some ⟨.endValue, (pair :: pairs) :: params⟩
      else none := by
  rw [headerIterations, headerConsume]
  simp only [headerParse]
  by_cases valid : isValidQuotedPairValue c = true
  · simp [valid, HeaderParser.updatePair]
  · by_cases quote : c = 34
    · simp [quote, isValidQuotedPairValue, isValidPairValue]
    · simp [valid, quote, HeaderParser.invalid]

theorem consume_begin_quoted (pair : HeaderPair) (pairs : HeaderParam) (params : List HeaderParam) (c : UInt8) :
    headerConsume headerIterations ⟨.beginQuotedValue, (pair :: pairs) :: params⟩ c =
      if isValidQuotedPairValue c then some ⟨.quotedValue, (pair.appendValue c :: pairs) :: params⟩ else none := by
  rw [headerIterations, headerConsume]
  simp only [headerParse]
  by_cases valid : isValidQuotedPairValue c = true
  · simp [valid, HeaderParser.updatePair]
  · simp [valid, HeaderParser.invalid]

theorem consume_begin_value_other (params : List HeaderParam) (c : UInt8) (space : isSpace c = false)
    (other : isValidPairValue c = false) :
    headerConsume headerIterations ⟨.beginValue, params⟩ c = if c = 34 then some ⟨.beginQuotedValue, params⟩ else none := by
  rw [headerIterations, headerConsume]
  simp only [headerParse, space, other]
  by_cases quote : c = 34
  · simp [quote]
  · simp [quote, HeaderParser.invalid]

theorem value_finish (pair : HeaderPair) (pairs : HeaderParam) (params : List HeaderParam) (rest : Bytes)
    (result : List HeaderParam) :
    Finishes ⟨.value, (pair :: pairs) :: params⟩ rest result ↔
      ∃ more behind, rest = more ++ behind ∧ (∀ c ∈ more, isValidPairValue c = true) ∧
        Finishes ⟨.endValue, (⟨pair.name, pair.value ++ more⟩ :: pairs) :: params⟩ behind result := by
  have reads := finish_more (fun text => ⟨.value, (⟨pair.name, text⟩ :: pairs) :: params⟩) isValidPairValue
    fun text c valid => consume_value ⟨pair.name, text⟩ pairs params c 3 valid
  constructor
  · intro finishes
    obtain ⟨more, behind, rfl, chars, stops⟩ := span isValidPairValue rest
    refine ⟨more, behind, rfl, chars, ?_⟩
    have read := (reads pair.value more behind chars result).mp finishes
    rcases stops with rfl | ⟨c, tail, rfl, other⟩
    · rw [finish_nil] at read ⊢
      exact ⟨.inl rfl, read.2⟩
    · rw [finish_cons, consume_value_end _ c other] at read
      rwa [finish_cons]
  · rintro ⟨more, behind, rfl, chars, finishes⟩
    refine (reads pair.value more behind chars result).mpr ?_
    cases behind with
    | nil =>
        rw [finish_nil] at finishes ⊢
        exact ⟨.inr rfl, finishes.2⟩
    | cons c tail =>
        by_cases valid : isValidPairValue c = true
        · obtain ⟨space, semicolon, comma⟩ : ¬ isSpace c = true ∧ c ≠ 59 ∧ c ≠ 44 := by simpa using value_continues c valid
          rw [finish_cons, headerIterations, consume_end_value, if_neg space, if_neg semicolon, if_neg comma] at finishes
          obtain ⟨_, none_, _⟩ := finishes
          cases none_
        · rw [finish_cons] at finishes ⊢
          rwa [consume_value_end _ c (by simpa using valid)]

theorem quoted_finish (pair : HeaderPair) (pairs : HeaderParam) (params : List HeaderParam) (rest : Bytes)
    (result : List HeaderParam) :
    Finishes ⟨.quotedValue, (pair :: pairs) :: params⟩ rest result ↔
      ∃ more behind, rest = more ++ 34 :: behind ∧ (∀ c ∈ more, isValidQuotedPairValue c = true) ∧
        Finishes ⟨.endValue, (⟨pair.name, pair.value ++ more⟩ :: pairs) :: params⟩ behind result := by
  have takes : ∀ text c, isValidQuotedPairValue c = true →
      headerConsume headerIterations ⟨.quotedValue, (⟨pair.name, text⟩ :: pairs) :: params⟩ c =
        some ⟨.quotedValue, (⟨pair.name, text ++ [c]⟩ :: pairs) :: params⟩ := by
    intro text c valid
    rw [consume_quoted, if_pos valid]
    rfl
  have reads := finish_more (fun text => ⟨.quotedValue, (⟨pair.name, text⟩ :: pairs) :: params⟩) isValidQuotedPairValue takes
  constructor
  · intro finishes
    obtain ⟨more, behind, rfl, chars, stops⟩ := span isValidQuotedPairValue rest
    have read := (reads pair.value more behind chars result).mp finishes
    rcases stops with rfl | ⟨c, tail, rfl, other⟩
    · rw [finish_nil] at read
      simp at read
    · rw [finish_cons, consume_quoted, other, if_neg (by decide)] at read
      split at read
      · rename_i quote
        refine ⟨more, tail, by rw [quote], chars, ?_⟩
        simpa using read
      · simp at read
  · rintro ⟨more, behind, rfl, chars, finishes⟩
    refine (reads pair.value more _ chars result).mpr ?_
    rw [finish_cons, consume_quoted, if_neg (by decide), if_pos rfl]
    exact ⟨_, rfl, finishes⟩

theorem quoted_char (c : UInt8) (quote : c = 34) : isSpace c = false ∧ isValidPairValue c = false := by
  subst quote
  decide

-- The opening of a value, up to its end.
theorem begin_value_finish (name : Bytes) (pairs : HeaderParam) (params : List HeaderParam) (rest : Bytes)
    (result : List HeaderParam) :
    Finishes ⟨.beginValue, (⟨name, []⟩ :: pairs) :: params⟩ rest result ↔
      ∃ after value text behind, rest = after ++ (text ++ behind) ∧ Blank after ∧ ValueText value text ∧
        Finishes ⟨.endValue, (⟨name, value⟩ :: pairs) :: params⟩ behind result := by
  have stays := space_stays .beginValue params (⟨name, []⟩ :: pairs) (.inr (.inr (.inl rfl)))
  constructor
  · intro finishes
    obtain ⟨after, later, rfl, spaces, stops⟩ := span isSpace rest
    rw [finish_blank _ stays after later spaces] at finishes
    rcases stops with rfl | ⟨c, tail, rfl, solid⟩
    · rw [finish_nil] at finishes
      simp at finishes
    · by_cases valid : isValidPairValue c = true
      · rw [finish_cons, headerIterations, consume_begin_value _ _ _ c 2 valid] at finishes
        simp only [Option.some.injEq, exists_eq_left', value_finish] at finishes
        obtain ⟨more, behind, rfl, chars, ends⟩ := finishes
        refine ⟨after, c :: more, c :: more, behind, rfl, spaces, .bare _ (List.cons_ne_nil c more) ?_, ends⟩
        exact List.forall_mem_cons.mpr ⟨valid, chars⟩
      · rw [finish_cons, consume_begin_value_other _ c solid (by simpa using valid)] at finishes
        split at finishes
        · rename_i quote
          simp only [Option.some.injEq, exists_eq_left'] at finishes
          cases tail with
          | nil =>
              rw [finish_nil] at finishes
              simp at finishes
          | cons d tail =>
              rw [finish_cons, consume_begin_quoted] at finishes
              split at finishes
              · rename_i first
                simp only [Option.some.injEq, exists_eq_left', quoted_finish] at finishes
                obtain ⟨more, behind, rfl, chars, ends⟩ := finishes
                refine ⟨after, d :: more, 34 :: (d :: more ++ [34]), behind, ?_, spaces,
                  .quoted _ (List.cons_ne_nil d more) (List.forall_mem_cons.mpr ⟨first, chars⟩), ends⟩
                simp [quote]
              · simp at finishes
        · simp at finishes
  · rintro ⟨after, value, text, behind, rfl, spaces, valueText, ends⟩
    rw [finish_blank _ stays after _ spaces]
    cases valueText with
    | bare present chars =>
        obtain ⟨c, more, rfl⟩ := List.exists_cons_of_ne_nil present
        obtain ⟨valid, chars⟩ := List.forall_mem_cons.mp chars
        rw [List.cons_append, finish_cons, headerIterations, consume_begin_value _ _ _ c 2 valid]
        simp only [Option.some.injEq, exists_eq_left', value_finish]
        exact ⟨more, behind, rfl, chars, ends⟩
    | quoted present chars =>
        obtain ⟨c, more, rfl⟩ := List.exists_cons_of_ne_nil present
        obtain ⟨valid, chars⟩ := List.forall_mem_cons.mp chars
        obtain ⟨solid, other⟩ := quoted_char 34 rfl
        rw [List.cons_append, finish_cons, consume_begin_value_other _ 34 solid other, if_pos rfl]
        simp only [Option.some.injEq, exists_eq_left', List.cons_append]
        rw [finish_cons, consume_begin_quoted, if_pos valid]
        simp only [Option.some.injEq, exists_eq_left', quoted_finish]
        exact ⟨more, behind, by simp, chars, ends⟩

theorem end_name_finish (pairs : HeaderParam) (params : List HeaderParam) (rest : Bytes) (result : List HeaderParam) :
    Finishes ⟨.endName, pairs :: params⟩ rest result ↔
      ∃ between later, rest = between ++ 61 :: later ∧ Blank between ∧ Finishes ⟨.beginValue, pairs :: params⟩ later result := by
  have stays := space_stays .endName params pairs (.inl rfl)
  constructor
  · intro finishes
    obtain ⟨between, later, rfl, spaces, stops⟩ := span isSpace rest
    rw [finish_blank _ stays between later spaces] at finishes
    rcases stops with rfl | ⟨c, tail, rfl, solid⟩
    · rw [finish_nil] at finishes
      simp at finishes
    · rw [finish_cons, headerIterations, consume_end_name, solid, if_neg (by decide)] at finishes
      split at finishes
      · rename_i equal
        simp only [Option.some.injEq, exists_eq_left'] at finishes
        exact ⟨between, tail, by rw [equal], spaces, finishes⟩
      · simp at finishes
  · rintro ⟨between, later, rfl, spaces, finishes⟩
    rw [finish_blank _ stays between _ spaces, finish_cons, headerIterations, consume_end_name, if_neg (by decide), if_pos rfl]
    exact ⟨_, rfl, finishes⟩

theorem name_finish (name : Bytes) (pairs : HeaderParam) (params : List HeaderParam) (rest : Bytes)
    (result : List HeaderParam) :
    Finishes ⟨.name, (⟨name, []⟩ :: pairs) :: params⟩ rest result ↔
      ∃ more later, rest = more ++ later ∧ (∀ c ∈ more, isValidPairName c = true) ∧
        Finishes ⟨.endName, (⟨name ++ more, []⟩ :: pairs) :: params⟩ later result := by
  have takes : ∀ text c, isValidPairName c = true →
      headerConsume headerIterations ⟨.name, (⟨text, []⟩ :: pairs) :: params⟩ c =
        some ⟨.name, (⟨text ++ [c], []⟩ :: pairs) :: params⟩ := by
    intro text c valid
    rw [headerIterations, consume_name, if_pos valid]
    rfl
  have reads := finish_more (fun text => ⟨.name, (⟨text, []⟩ :: pairs) :: params⟩) isValidPairName takes
  have ends : ∀ c params, isValidPairName c = false →
      headerConsume headerIterations ⟨.name, params⟩ c = headerConsume headerIterations ⟨.endName, params⟩ c := by
    intro c params other
    rw [headerIterations, consume_name, other, if_neg (by decide), consume_end_name, consume_end_name]
  constructor
  · intro finishes
    obtain ⟨more, later, rfl, chars, stops⟩ := span isValidPairName rest
    refine ⟨more, later, rfl, chars, ?_⟩
    have read := (reads name more later chars result).mp finishes
    rcases stops with rfl | ⟨c, tail, rfl, other⟩
    · rw [finish_nil] at read
      simp at read
    · rw [finish_cons, ends c _ other] at read
      rwa [finish_cons]
  · rintro ⟨more, later, rfl, chars, finishes⟩
    refine (reads name more later chars result).mpr ?_
    cases later with
    | nil =>
        rw [finish_nil] at finishes
        simp at finishes
    | cons c tail =>
        rw [finish_cons] at finishes ⊢
        by_cases valid : isValidPairName c = true
        · obtain ⟨next, consumed, _⟩ := finishes
          have solid : ¬ isSpace c = true ∧ c ≠ 61 := by
            refine ⟨fun space => ?_, fun equal => ?_⟩
            · rcases of_decide_eq_true space with rfl | rfl
              all_goals exact absurd valid (by decide)
            · subst equal
              exact absurd valid (by decide)
          rw [headerIterations, consume_end_name, if_neg solid.1, if_neg solid.2] at consumed
          cases consumed
        · rwa [ends c _ (by simpa using valid)]

-- One pair, from the state in front of its name to the state behind its value.
theorem pair_finish (pairs : HeaderParam) (params : List HeaderParam) (rest : Bytes) (result : List HeaderParam) :
    Finishes ⟨.beginName, pairs :: params⟩ rest result ↔
      ∃ pair text behind, rest = text ++ behind ∧ PairText pair text ∧
        Finishes ⟨.endValue, (pair :: pairs) :: params⟩ behind result := by
  have stays := space_stays .beginName params pairs (.inr (.inl rfl))
  constructor
  · intro finishes
    obtain ⟨before, later, rfl, spaces, stops⟩ := span isSpace rest
    rw [finish_blank _ stays before later spaces] at finishes
    rcases stops with rfl | ⟨c, tail, rfl, solid⟩
    · rw [finish_nil] at finishes
      simp at finishes
    · rw [finish_cons, headerIterations, consume_begin_name, solid, if_neg (by decide)] at finishes
      split at finishes
      · rename_i first
        simp only [Option.some.injEq, exists_eq_left', name_finish, end_name_finish, begin_value_finish] at finishes
        obtain ⟨more, _, rfl, chars, between, _, rfl, blank, after, value, text, behind, rfl, afterBlank, valueText, ends⟩ :=
          finishes
        refine ⟨⟨c :: more, value⟩, _, behind, ?_,
          .pair before (c :: more) between after value text [] spaces
            ⟨List.cons_ne_nil c more, List.forall_mem_cons.mpr ⟨first, chars⟩⟩ blank afterBlank valueText (by simp [Blank]),
          ends⟩
        simp
      · simp at finishes
  · rintro ⟨pair, text, behind, rfl, pairText, ends⟩
    obtain ⟨before, name, between, after, value, text, trailing, blankBefore, ⟨present, chars⟩, blankBetween, blankAfter,
      valueText, blankBehind⟩ := pairText
    obtain ⟨c, more, rfl⟩ := List.exists_cons_of_ne_nil present
    obtain ⟨valid, chars⟩ := List.forall_mem_cons.mp chars
    have solid : ¬ isSpace c = true := by
      intro space
      rcases of_decide_eq_true space with rfl | rfl
      all_goals exact absurd valid (by decide)
    rw [List.append_assoc, finish_blank _ stays before _ blankBefore, List.cons_append, List.cons_append, finish_cons,
      headerIterations, consume_begin_name, if_neg solid, if_pos valid]
    simp only [Option.some.injEq, exists_eq_left', name_finish, end_name_finish, begin_value_finish]
    refine ⟨more, _, List.append_assoc _ _ _, chars, between, after ++ (text ++ (trailing ++ behind)), by simp, blankBetween,
      after, value, text, trailing ++ behind, rfl, blankAfter, valueText, ?_⟩
    rwa [finish_blank _ (space_stays .endValue params _ (.inr (.inr (.inr rfl)))) trailing behind blankBehind]

theorem end_value_finish (pairs : HeaderParam) (params : List HeaderParam) (rest : Bytes) (result : List HeaderParam) :
    Finishes ⟨.endValue, pairs :: params⟩ rest result ↔
      ∃ behind later, rest = behind ++ later ∧ Blank behind ∧
        (later = [] ∧ (pairs :: params).reverse = result ∨
          (∃ tail, later = 59 :: tail ∧ Finishes ⟨.beginName, pairs :: params⟩ tail result) ∨
          ∃ tail, later = 44 :: tail ∧ Finishes ⟨.beginParam, pairs :: params⟩ tail result) := by
  have stays := space_stays .endValue params pairs (.inr (.inr (.inr rfl)))
  constructor
  · intro finishes
    obtain ⟨behind, later, rfl, spaces, stops⟩ := span isSpace rest
    refine ⟨behind, later, rfl, spaces, ?_⟩
    rw [finish_blank _ stays behind later spaces] at finishes
    rcases stops with rfl | ⟨c, tail, rfl, solid⟩
    · rw [finish_nil] at finishes
      exact .inl ⟨rfl, finishes.2⟩
    · rw [finish_cons, headerIterations, consume_end_value, solid, if_neg (by decide)] at finishes
      split at finishes
      · rename_i semicolon
        simp only [Option.some.injEq, exists_eq_left'] at finishes
        exact .inr (.inl ⟨tail, by rw [semicolon], finishes⟩)
      · split at finishes
        · rename_i comma
          simp only [Option.some.injEq, exists_eq_left'] at finishes
          exact .inr (.inr ⟨tail, by rw [comma], finishes⟩)
        · simp at finishes
  · rintro ⟨behind, later, rfl, spaces, ends⟩
    rw [finish_blank _ stays behind later spaces]
    rcases ends with ⟨rfl, same⟩ | ⟨tail, rfl, finishes⟩ | ⟨tail, rfl, finishes⟩
    · rw [finish_nil]
      exact ⟨.inl rfl, same⟩
    · rw [finish_cons, headerIterations, consume_end_value, if_neg (by decide), if_pos rfl]
      exact ⟨_, rfl, finishes⟩
    · rw [finish_cons, headerIterations, consume_end_value, if_neg (by decide), if_neg (by decide), if_pos rfl]
      exact ⟨_, rfl, finishes⟩

theorem begin_param_finish (params : List HeaderParam) (rest : Bytes) (result : List HeaderParam) :
    Finishes ⟨.beginParam, params⟩ rest result ↔ Finishes ⟨.beginName, [] :: params⟩ rest result := by
  cases rest with
  | nil => simp [finish_nil]
  | cons c tail =>
      rw [finish_cons, finish_cons, headerIterations, consume_begin_param, consume_begin_name, consume_begin_name]

theorem pair_trailing (pair : HeaderPair) (text behind : Bytes) (pairText : PairText pair text) (blank : Blank behind) :
    PairText pair (text ++ behind) := by
  obtain ⟨before, name, between, after, value, text, trailing, blankBefore, nameText, blankBetween, blankAfter, valueText,
    blankBehind⟩ := pairText
  have all : Blank (trailing ++ behind) := List.forall_mem_append.mpr ⟨blankBehind, blank⟩
  simpa using PairText.pair before name between after value text (trailing ++ behind) blankBefore nameText blankBetween
    blankAfter valueText all

theorem separated_present {A : Type} (separator : UInt8) (Item : A → Bytes → Prop) (items : List A) (text : Bytes)
    (separated : Separated separator Item items text) : items ≠ [] := by
  cases separated with
  | last item _ _ => exact List.cons_ne_nil item []
  | next item _ items _ _ _ => exact List.cons_ne_nil item items

-- A header, read from its first pair.
theorem header_text_iff (param : HeaderParam) (others : List HeaderParam) (rest : Bytes) :
    HeaderText (param :: others) rest ↔
      ∃ pair text, PairText pair text ∧
        (param = [pair] ∧ others = [] ∧ rest = text ∨
          (∃ later tail, param = later ++ [pair] ∧ rest = text ++ 59 :: tail ∧ HeaderText (later :: others) tail) ∨
          ∃ next more tail, param = [pair] ∧ others = next :: more ∧ rest = text ++ 44 :: tail ∧
            HeaderText (next :: more) tail) := by
  constructor
  · intro header
    cases header with
    | last _ _ paramText =>
        generalize same : param.reverse = items at paramText
        rw [ParamText, same] at paramText
        cases paramText with
        | last pair _ pairText =>
            refine ⟨pair, _, pairText, .inl ⟨by simpa using same, rfl, rfl⟩⟩
        | next pair text items tail pairText others =>
            refine ⟨pair, text, pairText, .inr (.inl ⟨items.reverse, tail, by simpa using same, rfl, ?_⟩)⟩
            exact .last _ _ (by rwa [ParamText, List.reverse_reverse])
    | next _ text _ rest paramText header =>
        obtain ⟨next, more, rfl⟩ := List.exists_cons_of_ne_nil (separated_present _ _ others rest header)
        generalize same : param.reverse = items at paramText
        rw [ParamText, same] at paramText
        cases paramText with
        | last pair _ pairText =>
            exact ⟨pair, _, pairText, .inr (.inr ⟨next, more, rest, by simpa using same, rfl, rfl, header⟩)⟩
        | next pair text items tail pairText others =>
            refine ⟨pair, text, pairText, .inr (.inl ⟨items.reverse, tail ++ 44 :: rest, by simpa using same, by simp, ?_⟩)⟩
            exact .next _ tail _ rest (by rwa [ParamText, List.reverse_reverse]) header
  · rintro ⟨pair, text, pairText, ⟨rfl, rfl, rfl⟩ | ⟨later, tail, rfl, rfl, header⟩ | ⟨next, more, tail, rfl, rfl, rfl, header⟩⟩
    · exact .last _ _ (.last pair _ pairText)
    · cases header with
      | last _ _ paramText =>
          refine .last _ _ ?_
          rw [ParamText, List.reverse_append]
          exact .next pair text _ tail pairText paramText
      | next _ first _ rest paramText header =>
          have joined : ParamText (later ++ [pair]) (text ++ 59 :: first) := by
            rw [ParamText, List.reverse_append]
            exact .next pair text _ first pairText paramText
          simpa [HeaderText] using Separated.next _ _ others rest joined header
    · exact .next _ text _ tail (.last pair text pairText) header

theorem header_finish (pairs : HeaderParam) (params : List HeaderParam) (rest : Bytes) (result : List HeaderParam) :
    Finishes ⟨.beginName, pairs :: params⟩ rest result ↔
      ∃ param others, HeaderText (param :: others) rest ∧ result = params.reverse ++ (param ++ pairs) :: others := by
  induction size : rest.length using Nat.strong_induction_on generalizing rest pairs params with
  | _ length ih =>
      subst size
      rw [pair_finish]
      constructor
      · rintro ⟨pair, text, behind, rfl, pairText, ends⟩
        rw [end_value_finish] at ends
        obtain ⟨blank, later, rfl, spaces, ends⟩ := ends
        have whole := pair_trailing pair text blank pairText spaces
        rcases ends with ⟨rfl, rfl⟩ | ⟨tail, rfl, finishes⟩ | ⟨tail, rfl, finishes⟩
        · refine ⟨[pair], [], (header_text_iff _ _ _).mpr ⟨pair, _, whole, .inl ⟨rfl, rfl, by simp⟩⟩, by simp⟩
        · obtain ⟨param, others, header, rfl⟩ := (ih tail.length (by simp; omega) _ _ tail rfl).mp finishes
          refine ⟨param ++ [pair], others, (header_text_iff _ _ _).mpr ⟨pair, _, whole, .inr (.inl ?_)⟩, by simp⟩
          exact ⟨param, tail, rfl, by simp, header⟩
        · rw [begin_param_finish] at finishes
          obtain ⟨param, others, header, rfl⟩ := (ih tail.length (by simp; omega) _ _ tail rfl).mp finishes
          refine ⟨[pair], param :: others, (header_text_iff _ _ _).mpr ⟨pair, _, whole, .inr (.inr ?_)⟩, by simp⟩
          exact ⟨param, others, tail, rfl, rfl, by simp, header⟩
      · rintro ⟨param, others, header, rfl⟩
        obtain ⟨pair, text, pairText, ends⟩ := (header_text_iff _ _ _).mp header
        rcases ends with ⟨rfl, rfl, rfl⟩ | ⟨later, tail, rfl, rfl, left⟩ | ⟨next, more, tail, rfl, rfl, rfl, left⟩
        · refine ⟨pair, rest, [], by simp, pairText, (end_value_finish _ _ _ _).mpr ⟨[], [], rfl, by simp [Blank], .inl ?_⟩⟩
          simp
        · refine ⟨pair, text, _, rfl, pairText, (end_value_finish _ _ _ _).mpr ⟨[], _, rfl, by simp [Blank], .inr (.inl ?_)⟩⟩
          refine ⟨tail, rfl, (ih tail.length (by simp; omega) _ _ tail rfl).mpr ⟨later, others, left, by simp⟩⟩
        · refine ⟨pair, text, _, rfl, pairText, (end_value_finish _ _ _ _).mpr ⟨[], _, rfl, by simp [Blank], .inr (.inr ?_)⟩⟩
          refine ⟨tail, rfl, (begin_param_finish _ _ _).mpr ?_⟩
          exact (ih tail.length (by simp; omega) _ _ tail rfl).mpr ⟨next, more, left, by simp⟩

theorem header_text_extracted (header : Bytes) (params : List HeaderParam) (text : HeaderText params header) :
    headerExtractParams header = some params := by
  obtain ⟨param, others, rfl⟩ := List.exists_cons_of_ne_nil (separated_present _ _ params header text)
  rw [extracted_finishes, begin_param_finish, header_finish]
  exact ⟨param, others, text, by simp⟩

-- The state machine accepts the headers of the grammar and no others, and returns their
-- parameters in order, each with its last pair first.
theorem header_extracted_iff (header : Bytes) (params : List HeaderParam) :
    headerExtractParams header = some params ↔ HeaderText params header := by
  refine ⟨fun extracted => ?_, header_text_extracted header params⟩
  rw [extracted_finishes, begin_param_finish, header_finish] at extracted
  obtain ⟨param, others, text, rfl⟩ := extracted
  simpa using text

end PushReceiver
