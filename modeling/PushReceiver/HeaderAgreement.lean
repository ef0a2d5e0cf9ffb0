import PushReceiver.Harmless
import PushReceiver.Params

set_option autoImplicit false

namespace PushReceiver

def headerValue (header : Bytes) : Bytes := (header.dropWhile (· ≠ equalSign)).drop 1

-- One pair in one parameter with an unquoted value, and nothing behind the value.
def BareValue (header : Bytes) : Prop := ∀ chr ∈ headerValue header, isValidPairValue chr = true

def isHeaderEntry (app : AppData) : Bool := app.key = ascii "encryption" ∨ app.key = ascii "crypto-key"

-- How many more iterations may leave the character where it is.
def HeaderState.rank : HeaderState → Nat
  | .beginParam => 3
  | .beginName => 2
  | .name => 1
  | .beginValue => 2
  | .value => 1
  | _ => 0

theorem parse_rank (parser next : HeaderParser) (c : UInt8) (stays : headerParse parser c = (next, false)) :
    next.state = .invalidHeader ∨ next.state.rank < parser.state.rank := by
  obtain ⟨state, params⟩ := parser
  simp only [headerParse, HeaderParser.invalid] at stays
  cases state with
  | beginParam =>
      cases stays
      exact .inr (Nat.lt_succ_self 2)
  | _ =>
      dsimp only at stays
      repeat' split at stays
      all_goals cases stays
      all_goals first | exact .inl rfl | exact .inr (Nat.lt_succ_self _)

theorem consume_enough (fuel extra : Nat) (parser : HeaderParser) (c : UInt8) (enough : parser.state.rank < fuel) :
    headerConsume (fuel + extra) parser c = headerConsume fuel parser c := by
  induction fuel generalizing parser with
  | zero => cases enough
  | succ fuel ih =>
      rw [Nat.succ_add_eq_add_succ, Nat.add_succ, headerConsume, headerConsume]
      cases parsed : headerParse parser c with
      | mk next advance =>
          cases advance with
          | true => rfl
          | false =>
              rcases parse_rank parser next c parsed with invalid | lower
              · simp [invalid]
              · simp only [ih next (Nat.lt_of_lt_of_le lower (Nat.le_of_lt_succ enough))]

theorem iterations_enough (extra : Nat) (parser : HeaderParser) (c : UInt8) :
    headerConsume (headerIterations + extra) parser c = headerConsume headerIterations parser c :=
  consume_enough headerIterations extra parser c (by cases parser.state <;> decide)

theorem consume_end_name (params : List HeaderParam) (c : UInt8) (fuel : Nat) :
    headerConsume (fuel + 1) ⟨.endName, params⟩ c =
      if isSpace c then some ⟨.endName, params⟩ else if c = 61 then some ⟨.beginValue, params⟩ else none := by
  rw [headerConsume]
  simp only [headerParse]
  by_cases space : isSpace c = true
  · simp [space]
  · by_cases equal : c = 61
    · simp [equal, isSpace]
    · simp [space, equal, HeaderParser.invalid]

theorem consume_name (params : List HeaderParam) (c : UInt8) (fuel : Nat) :
    headerConsume (fuel + 2) ⟨.name, params⟩ c =
      if isValidPairName c then some (HeaderParser.updatePair ⟨.name, params⟩ (.appendName c))
      else headerConsume (fuel + 1) ⟨.endName, params⟩ c := by
  rw [headerConsume]
  simp only [headerParse]
  by_cases valid : isValidPairName c = true
  · simp [valid]
  · by_cases ends : isSpace c = true ∨ c = 61
    · simp [valid, ends]
    · rw [consume_end_name, if_neg valid, if_neg ends, if_neg valid]
      rw [not_or] at ends
      rw [if_neg ends.1, if_neg ends.2]
      rfl

theorem consume_begin_name (pairs : HeaderParam) (params : List HeaderParam) (c : UInt8) (fuel : Nat) :
    headerConsume (fuel + 2) ⟨.beginName, pairs :: params⟩ c =
      if isSpace c then some ⟨.beginName, pairs :: params⟩
      else if isValidPairName c then some ⟨.name, (⟨[c], []⟩ :: pairs) :: params⟩ else none := by
  rw [headerConsume]
  simp only [headerParse]
  by_cases space : isSpace c = true
  · simp [space]
  · by_cases valid : isValidPairName c = true
    · simp [space, valid, headerConsume, headerParse, HeaderParser.prependPair, HeaderParser.updatePair, HeaderPair.appendName]
    · simp [space, valid, HeaderParser.invalid]

theorem consume_begin_param (params : List HeaderParam) (c : UInt8) :
    headerConsume 4 ⟨.beginParam, params⟩ c = headerConsume 3 ⟨.beginName, [] :: params⟩ c := rfl

theorem value_continues (c : UInt8) (valid : isValidPairValue c = true) : ¬ (isSpace c = true ∨ c = 59 ∨ c = 44) := by
  rintro (space | rfl | rfl)
  · rcases of_decide_eq_true space with rfl | rfl
    all_goals exact absurd valid (by decide)
  all_goals exact absurd valid (by decide)

theorem consume_value (pair : HeaderPair) (pairs : HeaderParam) (params : List HeaderParam) (c : UInt8) (fuel : Nat)
    (valid : isValidPairValue c = true) :
    headerConsume (fuel + 1) ⟨.value, (pair :: pairs) :: params⟩ c =
      some ⟨.value, (pair.appendValue c :: pairs) :: params⟩ := by
  have continues := value_continues c valid
  rw [headerConsume]
  simp [headerParse, valid, continues, HeaderParser.updatePair]

theorem consume_begin_value (pair : HeaderPair) (pairs : HeaderParam) (params : List HeaderParam) (c : UInt8) (fuel : Nat)
    (valid : isValidPairValue c = true) :
    headerConsume (fuel + 2) ⟨.beginValue, (pair :: pairs) :: params⟩ c =
      some ⟨.value, (pair.appendValue c :: pairs) :: params⟩ := by
  have noSpace : isSpace c = false := by simpa using fun space => value_continues c valid (.inl space)
  rw [headerConsume]
  simp only [headerParse, noSpace, valid]
  exact consume_value pair pairs params c fuel valid

theorem field_char (c : UInt8) (field : c = equalSign ∨ IsBase64 c ∨ c = 10) :
    isSpace c = false ∧ c ≠ 34 ∧ c ≠ 59 ∧ c ≠ 44 := by
  refine ⟨?_, ?_, ?_, ?_⟩
  · by_contra space
    rcases of_decide_eq_true (Bool.of_not_eq_false space) with rfl | rfl
    all_goals exact absurd field (by decide)
  all_goals
    rintro rfl
    exact absurd field (by decide)

theorem update_state (parser : HeaderParser) (update : HeaderPair → HeaderPair) :
    (parser.updatePair update).state = parser.state := by
  unfold HeaderParser.updatePair
  split <;> rfl

-- Nothing but a character of the url alphabet keeps these two states inside the client's field.
theorem consume_field (parser next : HeaderParser) (c : UInt8) (state : parser.state = .beginValue ∨ parser.state = .value)
    (field : c = equalSign ∨ IsBase64 c ∨ c = 10) (consumed : headerConsume headerIterations parser c = some next) :
    isValidPairValue c = true ∧ next.state = .value := by
  obtain ⟨noSpace, noQuote, noSemicolon, noComma⟩ := field_char c field
  obtain ⟨current, params⟩ := parser
  by_cases valid : isValidPairValue c = true
  · refine ⟨valid, ?_⟩
    rcases state with rfl | rfl
    all_goals
      simp only [headerIterations, headerConsume, headerParse, noSpace, valid, noSemicolon, noComma] at consumed
      obtain rfl := Option.some.inj consumed
      exact update_state _ _
  · rcases state with rfl | rfl
    all_goals
      simp [headerIterations, headerConsume, headerParse, noSpace, valid, noQuote, noSemicolon, noComma,
        HeaderParser.invalid] at consumed

-- The states a parser can be in before the first equal sign.
inductive BeforeEquals : HeaderParser → Prop where
  | beginParam : BeforeEquals ⟨.beginParam, []⟩
  | beginName : BeforeEquals ⟨.beginName, [[]]⟩
  | name (name : Bytes) : BeforeEquals ⟨.name, [[⟨name, []⟩]]⟩
  | endName (name : Bytes) : BeforeEquals ⟨.endName, [[⟨name, []⟩]]⟩

theorem begin_name_step (c : UInt8) (fuel : Nat) (next : HeaderParser)
    (consumed : headerConsume (fuel + 2) ⟨.beginName, [[]]⟩ c = some next) : c ≠ equalSign ∧ BeforeEquals next := by
  rw [consume_begin_name] at consumed
  split at consumed
  · rename_i space
    obtain rfl := Option.some.inj consumed
    refine ⟨?_, .beginName⟩
    rintro rfl
    cases space
  · split at consumed
    · rename_i valid
      obtain rfl := Option.some.inj consumed
      refine ⟨?_, .name [c]⟩
      rintro rfl
      exact absurd valid (by decide)
    · cases consumed

theorem end_name_step (name : Bytes) (c : UInt8) (fuel : Nat) (next : HeaderParser)
    (consumed : headerConsume (fuel + 1) ⟨.endName, [[⟨name, []⟩]]⟩ c = some next) :
    (c ≠ equalSign ∧ BeforeEquals next) ∨ (c = equalSign ∧ next = ⟨.beginValue, [[⟨name, []⟩]]⟩) := by
  rw [consume_end_name] at consumed
  split at consumed
  · rename_i space
    obtain rfl := Option.some.inj consumed
    refine .inl ⟨?_, .endName name⟩
    rintro rfl
    cases space
  · split at consumed
    · rename_i equal
      exact .inr ⟨equal, (Option.some.inj consumed).symm⟩
    · cases consumed

theorem before_step (parser next : HeaderParser) (c : UInt8) (before : BeforeEquals parser)
    (consumed : headerConsume headerIterations parser c = some next) :
    (c ≠ equalSign ∧ BeforeEquals next) ∨ (c = equalSign ∧ ∃ name, next = ⟨.beginValue, [[⟨name, []⟩]]⟩) := by
  cases before with
  | beginParam =>
      rw [headerIterations, consume_begin_param] at consumed
      exact .inl (begin_name_step c 1 next consumed)
  | beginName => exact .inl (begin_name_step c 2 next consumed)
  | name name =>
      rw [headerIterations, consume_name] at consumed
      split at consumed
      · rename_i valid
        obtain rfl := Option.some.inj consumed
        refine .inl ⟨?_, .name (name ++ [c])⟩
        rintro rfl
        exact absurd valid (by decide)
      · rcases end_name_step name c 2 next consumed with other | ⟨equal, ends⟩
        · exact .inl other
        · exact .inr ⟨equal, name, ends⟩
  | endName name =>
      rcases end_name_step name c 3 next consumed with other | ⟨equal, ends⟩
      · exact .inl other
      · exact .inr ⟨equal, name, ends⟩

theorem before_other (parser next : HeaderParser) (c : UInt8) (before : BeforeEquals parser) (other : c ≠ equalSign)
    (consumed : headerConsume headerIterations parser c = some next) : BeforeEquals next := by
  rcases before_step parser next c before consumed with ⟨_, kept⟩ | ⟨equal, _⟩
  · exact kept
  · exact absurd equal other

theorem run_cons (parser : HeaderParser) (c : UInt8) (rest : Bytes) (final : HeaderParser)
    (run : headerRun parser (c :: rest) = some final) :
    ∃ next, headerConsume headerIterations parser c = some next ∧ headerRun next rest = some final :=
  Option.bind_eq_some_iff.mp run

theorem run_before (before : Bytes) (parser final : HeaderParser) (states : BeforeEquals parser) (absent : equalSign ∉ before)
    (run : headerRun parser before = some final) : BeforeEquals final := by
  induction before generalizing parser with
  | nil =>
      obtain rfl := Option.some.inj run
      exact states
  | cons c rest ih =>
      obtain ⟨next, consumed, later⟩ := run_cons parser c rest final run
      have other : c ≠ equalSign := fun same => absent (by simp [same])
      have step := before_other parser next c states other consumed
      exact ih next step (fun member => absent (List.mem_cons_of_mem c member)) later

theorem run_first_equal (before after : Bytes) (parser final : HeaderParser) (states : BeforeEquals parser)
    (absent : equalSign ∉ before) (run : headerRun parser (before ++ equalSign :: after) = some final) :
    ∃ name, headerRun ⟨.beginValue, [[⟨name, []⟩]]⟩ after = some final := by
  induction before generalizing parser with
  | nil =>
      obtain ⟨next, consumed, later⟩ := run_cons parser equalSign after final run
      rcases before_step parser next equalSign states consumed with ⟨other, _⟩ | ⟨_, name, rfl⟩
      · exact absurd rfl other
      · exact ⟨name, later⟩
  | cons c rest ih =>
      obtain ⟨next, consumed, later⟩ := run_cons parser c _ final run
      have other : c ≠ equalSign := fun same => absent (by simp [same])
      have step := before_other parser next c states other consumed
      exact ih next step (fun member => absent (List.mem_cons_of_mem c member)) later

theorem run_field (after : Bytes) (parser final : HeaderParser) (state : parser.state = .beginValue ∨ parser.state = .value)
    (field : ∀ c ∈ after.takeWhile (· ≠ equalSign), IsBase64 c ∨ c = 10) (run : headerRun parser after = some final) :
    ∀ c ∈ after, isValidPairValue c = true := by
  induction after generalizing parser with
  | nil => simp
  | cons c rest ih =>
      obtain ⟨next, consumed, later⟩ := run_cons parser c rest final run
      have inside : c = equalSign ∨ IsBase64 c ∨ c = 10 := by
        by_cases equal : c = equalSign
        · exact .inl equal
        · exact .inr (field c (by simp [equal]))
      obtain ⟨valid, nextState⟩ := consume_field parser next c state inside consumed
      have other : c ≠ equalSign := by
        rintro rfl
        exact absurd valid (by decide)
      have restField : ∀ d ∈ rest.takeWhile (· ≠ equalSign), IsBase64 d ∨ d = 10 := by
        intro d member
        apply field d
        rw [List.takeWhile_cons_of_pos (by simpa using other)]
        exact List.mem_cons_of_mem c member
      intro d member
      rcases List.mem_cons.mp member with rfl | tail
      · exact valid
      · exact ih next (.inr nextState) restField later d tail

theorem run_value (after name value : Bytes) (bare : ∀ c ∈ after, isValidPairValue c = true) :
    headerRun ⟨.value, [[⟨name, value⟩]]⟩ after = some ⟨.value, [[⟨name, value ++ after⟩]]⟩ := by
  induction after generalizing value with
  | nil => simp [headerRun]
  | cons c rest ih =>
      have consumed := consume_value ⟨name, value⟩ [] [] c 3 (bare c List.mem_cons_self)
      rw [headerRun, headerIterations, consumed, Option.bind_some, HeaderPair.appendValue,
        ih (value ++ [c]) fun d member => bare d (List.mem_cons_of_mem c member), List.append_assoc]
      rfl

theorem header_run (header : Bytes) (params : List HeaderParam) (extracted : headerExtractParams header = some params) :
    ∃ final, headerRun ⟨.beginParam, []⟩ header = some final ∧
      ((final.state = .endValue ∧ params = final.params.reverse) ∨
        ((headerParse final 32).1.state = .endValue ∧ params = (headerParse final 32).1.params.reverse)) := by
  unfold headerExtractParams at extracted
  cases run : headerRun ⟨.beginParam, []⟩ header with
  | none =>
      rw [run] at extracted
      cases extracted
  | some final =>
      rw [run] at extracted
      refine ⟨final, rfl, ?_⟩
      dsimp only at extracted
      split at extracted
      · rename_i ended
        exact .inl ⟨ended, (Option.some.inj extracted).symm⟩
      · split at extracted
        · rename_i ended
          exact .inr ⟨ended, (Option.some.inj extracted).symm⟩
        · cases extracted

theorem extracted_equal (header : Bytes) (params : List HeaderParam) (extracted : headerExtractParams header = some params) :
    equalSign ∈ header := by
  by_contra absent
  obtain ⟨final, run, ends⟩ := header_run header params extracted
  have before := run_before header _ final .beginParam absent run
  cases before with
  | beginParam => rcases ends with ⟨ended, _⟩ | ⟨ended, _⟩ <;> cases ended
  | beginName => rcases ends with ⟨ended, _⟩ | ⟨ended, _⟩ <;> cases ended
  | name name => rcases ends with ⟨ended, _⟩ | ⟨ended, _⟩ <;> cases ended
  | endName name => rcases ends with ⟨ended, _⟩ | ⟨ended, _⟩ <;> cases ended

theorem header_value (before after : Bytes) (absent : equalSign ∉ before) :
    headerValue (before ++ equalSign :: after) = after := by
  rw [headerValue, List.dropWhile_append_of_pos (each_differs before equalSign absent)]
  simp

theorem bare_pair (header : Bytes) (params : List HeaderParam) (extracted : headerExtractParams header = some params)
    (bare : BareValue header) : ∃ name, params = [[⟨name, headerValue header⟩]] := by
  obtain ⟨before, after, rfl, absent⟩ := first_delimiter header equalSign (extracted_equal header params extracted)
  obtain ⟨final, run, ends⟩ := header_run _ params extracted
  obtain ⟨name, later⟩ := run_first_equal before after _ final .beginParam absent run
  rw [BareValue, header_value before after absent] at bare
  rw [header_value before after absent]
  refine ⟨name, ?_⟩
  cases after with
  | nil =>
      obtain rfl := Option.some.inj later
      rcases ends with ⟨ended, _⟩ | ⟨ended, _⟩ <;> cases ended
  | cons c rest =>
      rw [headerRun, headerIterations, consume_begin_value ⟨name, []⟩ [] [] c 2 (bare c List.mem_cons_self),
        Option.bind_some] at later
      have value := run_value rest name [c] fun d member => bare d (List.mem_cons_of_mem c member)
      rw [show HeaderPair.appendValue c ⟨name, []⟩ = ⟨name, [c]⟩ from rfl, value] at later
      obtain rfl := Option.some.inj later
      rcases ends with ⟨ended, _⟩ | ⟨_, same⟩
      · cases ended
      · rw [same]
        rfl

theorem encryption_pair (overflow : Bytes → UInt32) (saltLen : Nat) (positive : 0 < saltLen) (name value : Bytes)
    (param : EncryptionParam) (looped : encryptionLoop overflow saltLen [⟨name, value⟩] ⟨none, 0, 0, []⟩ = .ok param)
    (whole : param.decodedSaltLen = saltLen) :
    param.keyId = none ∧ param.rsValue = 0 ∧ eceBase64urlDecode value .ignorePadding saltLen = (saltLen, param.salt) := by
  have lost : ∀ other : EncryptionParam, other.decodedSaltLen = 0 → .ok other = (Except.ok param : Except EceError _) → False := by
    intro other empty same
    obtain rfl := Except.ok.inj same
    omega
  unfold encryptionLoop at looped
  split at looped
  · exact absurd looped (lost _ rfl)
  · split at looped
    · rw [if_neg (by simp)] at looped
      cases scanned : scanU32 overflow value with
      | none =>
          rw [scanned] at looped
          cases looped
      | some rsValue =>
          rw [scanned] at looped
          dsimp only at looped
          split at looped
          · cases looped
          · exact absurd looped (lost _ rfl)
    · split at looped
      · rw [if_neg (by simp)] at looped
        cases decoded : eceBase64urlDecode value .ignorePadding saltLen with
        | mk decodedSaltLen salt =>
            rw [decoded] at looped
            dsimp only at looped
            split at looped
            · rename_i failed
              exact absurd looped (lost _ failed)
            · obtain rfl := Except.ok.inj looped
              exact ⟨rfl, rfl, by rw [← whole]⟩
      · exact absurd looped (lost _ rfl)

theorem bare_plain (header : Bytes) (bare : BareValue header) : equalSign ∉ headerValue header ∧ 10 ∉ headerValue header :=
  ⟨fun member => absurd (bare _ member) (by decide), fun member => absurd (bare _ member) (by decide)⟩

theorem field_bare (header : Bytes) (bare : BareValue header) : fieldSymbols header = headerValue header := by
  obtain ⟨noEqual, noBreak⟩ := bare_plain header bare
  have whole : secondField header = headerValue header :=
    List.takeWhile_eq_self_iff.mpr (each_differs _ equalSign noEqual)
  rw [fieldSymbols, whole]
  exact List.filter_eq_self.mpr (each_differs _ 10 noBreak)

theorem bare_decoded (header : Bytes) (params : List HeaderParam) (extracted : headerExtractParams header = some params)
    (bare : BareValue header) (binaryLen : Nat) (positive : 0 < binaryLen) (binary : Bytes)
    (decoded : eceBase64urlDecode (headerValue header) .ignorePadding binaryLen = (binaryLen, binary)) :
    decodeSecondField header = .ok binary ∧ binary.length = binaryLen := by
  obtain ⟨read, length⟩ := url_decode_full (headerValue header) (bare_plain header bare).1 binaryLen positive binary decoded
  refine ⟨(decode_second_field header binary).mpr ⟨extracted_equal header params extracted, ?_⟩, length⟩
  rw [field_bare header bare]
  exact Radix64.decode_extend urlValue charValue url_value_char _ _ read

theorem client_bare (header : Bytes) (params : List HeaderParam) (extracted : headerExtractParams header = some params)
    (decoded : Bytes) (read : decodeSecondField header = .ok decoded) : BareValue header := by
  obtain ⟨before, after, rfl, absent⟩ := first_delimiter header equalSign (extracted_equal header params extracted)
  obtain ⟨final, run, _⟩ := header_run _ params extracted
  obtain ⟨name, later⟩ := run_first_equal before after _ final .beginParam absent run
  have readable := (readable_iff _).mp ⟨decoded, read⟩
  have value := header_value before after absent
  rw [BareValue, value]
  refine run_field after _ final (.inl rfl) ?_ later
  intro c inside
  by_cases lineBreak : c = 10
  · exact .inr lineBreak
  · refine .inl (readable.symbols c (List.mem_filter.mpr ⟨?_, by simpa using lineBreak⟩))
    rw [← value] at inside
    exact inside

theorem sender_pair (keyId : Option Bytes) (header rawSenderPubKey : Bytes) (rawSenderPubKeyLen : Nat)
    (found : senderPubKeyFrom keyId header rawSenderPubKeyLen = .ok rawSenderPubKey) :
    ∃ params, headerExtractParams header = some params ∧
      (keyId = none → 0 < rawSenderPubKeyLen → BareValue header →
        eceBase64urlDecode (headerValue header) .ignorePadding rawSenderPubKeyLen = (rawSenderPubKeyLen, rawSenderPubKey)) := by
  unfold senderPubKeyFrom at found
  cases extracted : headerExtractParams header with
  | none =>
      rw [extracted] at found
      cases found
  | some params =>
      refine ⟨params, rfl, ?_⟩
      rintro rfl positive bare
      obtain ⟨name, rfl⟩ := bare_pair header params extracted bare
      rw [extracted] at found
      by_cases isDh : HeaderPair.hasName ⟨name, headerValue header⟩ (ascii "dh") = true
      · simp only [List.head?_cons, List.find?_cons, isDh] at found
        split at found
        · cases found
        · rename_i whole
          exact Prod.ext (not_not.mp whole) (Except.ok.inj found)
      · simp only [List.head?_cons, List.find?_cons, isDh, List.find?_nil] at found
        rw [if_pos (Nat.ne_of_lt positive)] at found
        cases found

-- The three values the library extracts come out of the parts of the two headers the client looks at.
structure Extracted (cryptoKey encryption : Bytes) (params : WebpushParams) : Prop where
  encryptionParams : ∃ params, headerExtractParams encryption = some params
  cryptoKeyParams : ∃ params, headerExtractParams cryptoKey = some params
  salt : BareValue encryption →
    eceBase64urlDecode (headerValue encryption) .ignorePadding eceSaltLength = (eceSaltLength, params.salt)
  rs : BareValue encryption → params.rs = rsLength
  rawSenderPubKey : BareValue encryption → BareValue cryptoKey →
    eceBase64urlDecode (headerValue cryptoKey) .ignorePadding eceWebpushPublicKeyLength =
      (eceWebpushPublicKeyLength, params.rawSenderPubKey)

theorem extracted_params (overflow : Bytes → UInt32) (cryptoKey encryption : Bytes) (params : WebpushParams)
    (extracted : headersExtractParams overflow cryptoKey encryption eceSaltLength eceWebpushPublicKeyLength = .ok params) :
    Extracted cryptoKey encryption params := by
  unfold headersExtractParams at extracted
  cases encryptionRead : headerExtractParams encryption with
  | none =>
      rw [encryptionRead] at extracted
      cases extracted
  | some encryptionParams =>
      rw [encryptionRead] at extracted
      dsimp only at extracted
      cases looped : encryptionLoop overflow eceSaltLength (encryptionParams.headD []) ⟨none, 0, 0, []⟩ with
      | error error =>
          rw [looped] at extracted
          cases extracted
      | ok param =>
          rw [looped] at extracted
          dsimp only at extracted
          split at extracted
          · cases extracted
          · rename_i whole
            have pair : BareValue encryption → param.keyId = none ∧ param.rsValue = 0 ∧
                eceBase64urlDecode (headerValue encryption) .ignorePadding eceSaltLength = (eceSaltLength, param.salt) := by
              intro bare
              obtain ⟨name, rfl⟩ := bare_pair encryption encryptionParams encryptionRead bare
              exact encryption_pair overflow eceSaltLength (by decide) name _ param looped (not_not.mp whole)
            cases found : senderPubKeyFrom param.keyId cryptoKey eceWebpushPublicKeyLength with
            | error error =>
                rw [found] at extracted
                cases extracted
            | ok rawSenderPubKey =>
                rw [found] at extracted
                obtain rfl := Except.ok.inj extracted
                obtain ⟨cryptoKeyParams, cryptoKeyRead, decoded⟩ := sender_pair param.keyId cryptoKey _ _ found
                exact
                  { encryptionParams := ⟨encryptionParams, encryptionRead⟩
                    cryptoKeyParams := ⟨cryptoKeyParams, cryptoKeyRead⟩
                    salt := fun bare => (pair bare).2.2
                    rs := fun bare => if_pos (pair bare).2.1
                    rawSenderPubKey := fun bare => decoded (pair bare).1 (by decide) }

theorem scan_relevant (appData : List AppData) (salt rawSenderPubKey : Bytes) :
    scanAppData appData salt rawSenderPubKey = scanAppData (appData.filter isHeaderEntry) salt rawSenderPubKey := by
  induction appData generalizing salt rawSenderPubKey with
  | nil => rfl
  | cons app rest ih =>
      by_cases relevant : isHeaderEntry app = true
      · rw [List.filter_cons_of_pos relevant, scanAppData, scanAppData]
        simp only [← ih]
      · rw [List.filter_cons_of_neg relevant, scanAppData]
        simp only [isHeaderEntry, decide_eq_true_eq, not_or] at relevant
        rw [if_neg relevant.1, if_neg relevant.2]
        exact ih salt rawSenderPubKey

theorem perm_pair {α : Type} (entries : List α) (left right : α) (perm : entries.Perm [left, right]) :
    entries = [left, right] ∨ entries = [right, left] := by
  match entries, perm.length_eq with
  | [first, second], _ =>
      have member : first ∈ [left, right] := perm.subset List.mem_cons_self
      rcases List.mem_cons.mp member with rfl | last
      · have rest := List.perm_singleton.mp perm.cons_inv
        exact .inl (by rw [rest])
      · obtain rfl := List.mem_singleton.mp last
        have rest := List.perm_singleton.mp (perm.trans (List.Perm.swap first left [])).cons_inv
        exact .inr (by rw [rest])

theorem scan_encryption (value : Bytes) (rest : List AppData) (earlierSalt earlierKey salt rawSenderPubKey : Bytes) :
    scanAppData (⟨ascii "encryption", value⟩ :: rest) earlierSalt earlierKey = .accepts salt rawSenderPubKey ↔
      ∃ decoded, decodeSecondField value = .ok decoded ∧ decoded.length = eceSaltLength ∧
        scanAppData rest (decoded ++ earlierSalt) earlierKey = .accepts salt rawSenderPubKey := by
  rw [scanAppData, if_pos rfl]
  cases decodeSecondField value with
  | error exception => simp
  | ok decoded => by_cases length : decoded.length = eceSaltLength <;> simp [length]

theorem scan_crypto_key (value : Bytes) (rest : List AppData) (earlierSalt earlierKey salt rawSenderPubKey : Bytes) :
    scanAppData (⟨ascii "crypto-key", value⟩ :: rest) earlierSalt earlierKey = .accepts salt rawSenderPubKey ↔
      ∃ decoded, decodeSecondField value = .ok decoded ∧ decoded.length = eceWebpushPublicKeyLength ∧
        scanAppData rest earlierSalt (decoded ++ earlierKey) = .accepts salt rawSenderPubKey := by
  have other : ascii "crypto-key" ≠ ascii "encryption" := by decide
  rw [scanAppData, if_neg other, if_pos rfl]
  cases decodeSecondField value with
  | error exception => simp
  | ok decoded => by_cases length : decoded.length = eceWebpushPublicKeyLength <;> simp [length]

theorem scan_end (earlierSalt earlierKey salt rawSenderPubKey : Bytes) :
    scanAppData [] earlierSalt earlierKey = .accepts salt rawSenderPubKey ↔
      earlierSalt = salt ∧ earlierKey = rawSenderPubKey := by
  rw [scanAppData, Scan.accepts.injEq]

-- With one entry of each kind, in either order, the loop accepts what the two values decode to.
theorem scan_pair (appData : List AppData) (encryption cryptoKey : Bytes)
    (carried : (appData.filter isHeaderEntry).Perm [⟨ascii "encryption", encryption⟩, ⟨ascii "crypto-key", cryptoKey⟩])
    (salt rawSenderPubKey : Bytes) :
    scanAppData appData [] [] = .accepts salt rawSenderPubKey ↔
      (decodeSecondField encryption = .ok salt ∧ salt.length = eceSaltLength) ∧
        decodeSecondField cryptoKey = .ok rawSenderPubKey ∧ rawSenderPubKey.length = eceWebpushPublicKeyLength := by
  rw [scan_relevant]
  rcases perm_pair _ _ _ carried with order | order
  · simp only [order, scan_encryption, scan_crypto_key, scan_end, List.append_nil]
    constructor
    · rintro ⟨_, read, length, _, readKey, keyLength, rfl, rfl⟩
      exact ⟨⟨read, length⟩, readKey, keyLength⟩
    · rintro ⟨⟨read, length⟩, readKey, keyLength⟩
      exact ⟨salt, read, length, rawSenderPubKey, readKey, keyLength, rfl, rfl⟩
  · simp only [order, scan_encryption, scan_crypto_key, scan_end, List.append_nil]
    constructor
    · rintro ⟨_, readKey, keyLength, _, read, length, rfl, rfl⟩
      exact ⟨⟨read, length⟩, readKey, keyLength⟩
    · rintro ⟨⟨read, length⟩, readKey, keyLength⟩
      exact ⟨rawSenderPubKey, readKey, keyLength, salt, read, length, rfl, rfl⟩

theorem passed_of_scan (env : Environment) (stanza : DataMessageStanza) (salt rawSenderPubKey : Bytes)
    (scanned : scanAppData stanza.appData [] [] = .accepts salt rawSenderPubKey) (saltLength : salt.length = eceSaltLength)
    (keyLength : rawSenderPubKey.length = eceWebpushPublicKeyLength)
    (room : eceAesgcmPlaintextMaxLength rsLength stanza.rawData.length ≠ 0) :
    passedToDecrypt env stanza = some
      { rawRecvPrivKey := env.rawSubPrivKey.take eceWebpushPrivateKeyLength
        authSecret := env.authSecret.take eceWebpushAuthSecretLength
        salt, rawSenderPubKey
        rs := rsLength
        ciphertext := stanza.rawData
        plaintextLen := eceAesgcmPlaintextMaxLength rsLength stanza.rawData.length } := by
  have present : ¬ (salt = [] ∨ rawSenderPubKey = [] ∨ stanza.rawData = []) := by
    rintro (rfl | rfl | empty)
    · cases saltLength
    · cases keyLength
    · rw [empty] at room
      exact absurd rfl room
  rw [passedToDecrypt, scanned]
  simp only [decryptCall, if_neg present, if_neg room, List.take_of_length_le (Nat.le_of_eq saltLength),
    List.take_of_length_le (Nat.le_of_eq keyLength)]

theorem headers_read_alike_iff (overflow : Bytes → UInt32) (env : Environment) (stanza : DataMessageStanza)
    (encryption cryptoKey : Bytes) (params : WebpushParams)
    (carried : (stanza.appData.filter isHeaderEntry).Perm
      [⟨ascii "encryption", encryption⟩, ⟨ascii "crypto-key", cryptoKey⟩])
    (room : eceAesgcmPlaintextMaxLength rsLength stanza.rawData.length ≠ 0)
    (extracted : headersExtractParams overflow cryptoKey encryption eceSaltLength eceWebpushPublicKeyLength = .ok params) :
    (∃ call, passedToDecrypt env stanza = some call ∧ call.salt = params.salt ∧
        call.rawSenderPubKey = params.rawSenderPubKey ∧ call.rs = params.rs) ↔
      BareValue encryption ∧ BareValue cryptoKey := by
  have parts := extracted_params overflow cryptoKey encryption params extracted
  obtain ⟨encryptionParams, encryptionRead⟩ := parts.encryptionParams
  obtain ⟨cryptoKeyParams, cryptoKeyRead⟩ := parts.cryptoKeyParams
  constructor
  · rintro ⟨call, passed, _⟩
    unfold passedToDecrypt at passed
    cases scanned : scanAppData stanza.appData [] [] with
    | accepts salt rawSenderPubKey =>
        obtain ⟨⟨read, _⟩, readKey, _⟩ := (scan_pair _ _ _ carried salt rawSenderPubKey).mp scanned
        exact ⟨client_bare _ _ encryptionRead salt read, client_bare _ _ cryptoKeyRead rawSenderPubKey readKey⟩
    | rejects =>
        rw [scanned] at passed
        cases passed
    | throws exception =>
        rw [scanned] at passed
        cases passed
  · rintro ⟨bare, keyBare⟩
    have salt := bare_decoded encryption _ encryptionRead bare _ (by decide) _ (parts.salt bare)
    have key := bare_decoded cryptoKey _ cryptoKeyRead keyBare _ (by decide) _ (parts.rawSenderPubKey bare keyBare)
    rw [parts.rs bare]
    have scanned := (scan_pair _ _ _ carried _ _).mpr ⟨salt, key⟩
    exact ⟨_, passed_of_scan env stanza _ _ scanned salt.2 key.2 room, rfl, rfl, rfl⟩

-- No Encryption header the library builds has a bare value: the salt stands behind the record size.
theorem from_params_not_bare (salt rawSenderPubKey : Bytes) (rs : UInt32) (headers : WebpushHeaders)
    (built : headersFromParams salt rawSenderPubKey rs = .ok headers) : ¬ BareValue headers.encryption := by
  unfold headersFromParams at built
  split at built
  · cases built
  · split at built
    · cases built
    · obtain rfl := Except.ok.inj built
      have shape : ascii "rs=" ++ decimal rs.toNat ++ ascii ";salt=" ++ eceBase64urlEncode salt =
          ascii "rs" ++ equalSign :: (decimal rs.toNat ++ 59 :: (ascii "salt=" ++ eceBase64urlEncode salt)) := by
        rw [show ascii "rs=" = ascii "rs" ++ [equalSign] from rfl, show ascii ";salt=" = 59 :: ascii "salt=" from rfl]
        simp
      intro bare
      rw [BareValue, shape, header_value (ascii "rs") _ (by decide)] at bare
      exact absurd (bare 59 (List.mem_append_right _ List.mem_cons_self)) (by decide)

def plainSalt : Bytes := List.replicate 16 7

def plainKey : Bytes := 4 :: List.replicate 64 9

def plainStanza (encryption cryptoKey : Bytes) : DataMessageStanza :=
  { appData := [⟨ascii "crypto-key", cryptoKey⟩, ⟨ascii "from", ascii "x"⟩, ⟨ascii "encryption", encryption⟩]
    persistentId := ascii "a"
    rawData := List.replicate 34 1 }

def plainEnvironment : Environment where
  parseLoginResponse _ := none
  parseDataMessageStanza _ := none
  parseHeartbeatAck _ := none
  rawSubPrivKey := List.replicate 32 1
  authSecret := List.replicate 16 2
  decrypt _ := (-1, [])

theorem headers_read_alike_bare :
    (∃ call, passedToDecrypt plainEnvironment (plainStanza (ascii "salt=BwcHBwcHBwcHBwcHBwcHBw")
          (ascii "dh=BAkJCQkJCQkJCQkJCQkJCQkJCQkJCQkJCQkJCQkJCQkJCQkJCQkJCQkJCQkJCQkJCQkJCQkJCQkJCQkJCQkJCQk")) = some call ∧
        call.salt = plainSalt ∧ call.rawSenderPubKey = plainKey ∧ call.rs = 4096) ↔
      BareValue (ascii "salt=BwcHBwcHBwcHBwcHBwcHBw") ∧
        BareValue (ascii "dh=BAkJCQkJCQkJCQkJCQkJCQkJCQkJCQkJCQkJCQkJCQkJCQkJCQkJCQkJCQkJCQkJCQkJCQkJCQkJCQkJCQkJCQk") :=
  headers_read_alike_iff (fun _ => 0) plainEnvironment (plainStanza _ _) _ _ ⟨plainSalt, plainKey, 4096⟩
    (by decide) (by decide) (by rfl)

-- The pair the library builds for the record size of the client itself.
theorem built_headers_unread :
    ∃ headers, headersFromParams plainSalt plainKey 4096 = .ok headers ∧
      headersExtractParams (fun _ => 0) headers.cryptoKey headers.encryption eceSaltLength eceWebpushPublicKeyLength =
        .ok ⟨plainSalt, plainKey, 4096⟩ ∧
      (∃ exception, scanAppData (plainStanza headers.encryption headers.cryptoKey).appData [] [] = .throws exception) ∧
      passedToDecrypt plainEnvironment (plainStanza headers.encryption headers.cryptoKey) = none :=
  ⟨_, rfl, by rfl, ⟨.runtimeError "Input is not valid base64-encoded data.", by rfl⟩, by rfl⟩

end PushReceiver
