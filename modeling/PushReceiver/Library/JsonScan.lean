import Mathlib.Data.List.Basic

set_option autoImplicit false

namespace JsonText

-- The tokens of RFC 8259.
inductive Token where
  | beginObject
  | endObject
  | beginArray
  | endArray
  | nameSeparator
  | valueSeparator
  | null
  | boolean (value : Bool)
  | number (text : List UInt8)
  | string (text : List UInt8)
deriving DecidableEq, Repr

-- Where a UTF-8 sequence stands: the bytes it still owes, and the bounds of the next one.
inductive Utf8 where
  | complete
  | tail1
  | tail2
  | tail3
  | afterE0
  | afterED
  | afterF0
  | afterF4
deriving DecidableEq, Repr

def utf8First (byte : UInt8) : Option Utf8 :=
  if byte < 0x80 then some .complete
  else if byte < 0xC2 then none
  else if byte < 0xE0 then some .tail1
  else if byte = 0xE0 then some .afterE0
  else if byte = 0xED then some .afterED
  else if byte < 0xF0 then some .tail2
  else if byte = 0xF0 then some .afterF0
  else if byte < 0xF4 then some .tail3
  else if byte = 0xF4 then some .afterF4
  else none

def between (low high byte : UInt8) (next : Utf8) : Option Utf8 := if low ≤ byte ∧ byte ≤ high then some next else none

def utf8Step : Utf8 → UInt8 → Option Utf8
  | .complete, byte => utf8First byte
  | .tail1, byte => between 0x80 0xBF byte .complete
  | .tail2, byte => between 0x80 0xBF byte .tail1
  | .tail3, byte => between 0x80 0xBF byte .tail2
  | .afterE0, byte => between 0xA0 0xBF byte .tail1
  | .afterED, byte => between 0x80 0x9F byte .tail1
  | .afterF0, byte => between 0x90 0xBF byte .tail2
  | .afterF4, byte => between 0x80 0x8F byte .tail2

def utf8Run (utf8 : Utf8) : List UInt8 → Option Utf8
  | [] => some utf8
  | byte :: rest =>
      match utf8Step utf8 byte with
      | none => none
      | some next => utf8Run next rest

-- Bytes a string may hold as they are.
def Unescaped (byte : UInt8) : Prop := byte ≠ 34 ∧ byte ≠ 92 ∧ ¬ byte < 0x20

instance (byte : UInt8) : Decidable (Unescaped byte) := inferInstanceAs (Decidable (_ ∧ _ ∧ _))

-- Text that may stand between quotation marks as it is: no quotation mark, no backslash, no control
-- character, and well-formed UTF-8.
structure Plain (text : List UInt8) : Prop where
  unescaped : ∀ byte ∈ text, Unescaped byte
  utf8 : utf8Run .complete text = some .complete

inductive NumberPart where
  | minus
  | zero
  | integer
  | point
  | fraction
  | exponent
  | sign
  | digits
deriving DecidableEq, Repr

def isDigit (byte : UInt8) : Bool := 48 ≤ byte && byte ≤ 57

def isExponent (byte : UInt8) : Bool := byte = 101 || byte = 69

def numberStep : NumberPart → UInt8 → Option NumberPart
  | .minus, byte => if byte = 48 then some .zero else if isDigit byte then some .integer else none
  | .zero, byte => if byte = 46 then some .point else if isExponent byte then some .exponent else none
  | .integer, byte =>
      if isDigit byte then some .integer else if byte = 46 then some .point else if isExponent byte then some .exponent else none
  | .point, byte => if isDigit byte then some .fraction else none
  | .fraction, byte => if isDigit byte then some .fraction else if isExponent byte then some .exponent else none
  | .exponent, byte => if byte = 43 ∨ byte = 45 then some .sign else if isDigit byte then some .digits else none
  | .sign, byte => if isDigit byte then some .digits else none
  | .digits, byte => if isDigit byte then some .digits else none

def NumberPart.ends : NumberPart → Bool
  | .zero => true
  | .integer => true
  | .fraction => true
  | .digits => true
  | _ => false

-- What the bytes before have begun. In an escape, high is the first half of a surrogate pair.
inductive Scan where
  | ground
  | word (rest : List UInt8) (value : Option Bool)
  | number (part : NumberPart) (text : List UInt8)
  | string (text : List UInt8) (utf8 : Utf8)
  | escape (text : List UInt8)
  | unicode (text : List UInt8) (high : Option Nat) (digits : List Nat)
  | lowEscape (text : List UInt8) (high : Nat)
  | lowUnicode (text : List UInt8) (high : Nat)
deriving DecidableEq, Repr

def isWhitespace (byte : UInt8) : Bool := byte = 32 || byte = 9 || byte = 10 || byte = 13

def structural (byte : UInt8) : Option Token :=
  if byte = 123 then some .beginObject
  else if byte = 125 then some .endObject
  else if byte = 91 then some .beginArray
  else if byte = 93 then some .endArray
  else if byte = 58 then some .nameSeparator
  else if byte = 44 then some .valueSeparator
  else none

-- true, false and null by their first letters; a number by its first character.
def begins (byte : UInt8) : Option Scan :=
  if byte = 34 then some (.string [] .complete)
  else if byte = 116 then some (.word [114, 117, 101] (some true))
  else if byte = 102 then some (.word [97, 108, 115, 101] (some false))
  else if byte = 110 then some (.word [117, 108, 108] none)
  else if byte = 45 then some (.number .minus [byte])
  else if byte = 48 then some (.number .zero [byte])
  else if isDigit byte then some (.number .integer [byte])
  else none

def wordToken : Option Bool → Token
  | none => .null
  | some value => .boolean value

def groundStep (byte : UInt8) : Option (List Token × Scan) :=
  if isWhitespace byte then some ([], .ground)
  else
    match structural byte with
    | some token => some ([token], .ground)
    | none => (begins byte).map fun scan => ([], scan)

def simpleEscape (byte : UInt8) : Option UInt8 :=
  if byte = 34 ∨ byte = 92 ∨ byte = 47 then some byte
  else if byte = 98 then some 8
  else if byte = 102 then some 12
  else if byte = 110 then some 10
  else if byte = 114 then some 13
  else if byte = 116 then some 9
  else none

def hexDigit (byte : UInt8) : Option Nat :=
  if isDigit byte then some (byte.toNat - 48)
  else if 65 ≤ byte ∧ byte ≤ 70 then some (byte.toNat - 55)
  else if 97 ≤ byte ∧ byte ≤ 102 then some (byte.toNat - 87)
  else none

def utf8Encode (code : Nat) : List UInt8 :=
  if code < 0x80 then [UInt8.ofNat code]
  else if code < 0x800 then [UInt8.ofNat (0xC0 + code / 64), UInt8.ofNat (0x80 + code % 64)]
  else if code < 0x10000 then
    [UInt8.ofNat (0xE0 + code / 4096), UInt8.ofNat (0x80 + code / 64 % 64), UInt8.ofNat (0x80 + code % 64)]
  else
    [UInt8.ofNat (0xF0 + code / 262144), UInt8.ofNat (0x80 + code / 4096 % 64), UInt8.ofNat (0x80 + code / 64 % 64),
      UInt8.ofNat (0x80 + code % 64)]

def unit (digits : List Nat) : Nat := digits.foldl (fun code digit => code * 16 + digit) 0

-- The four digits of an escape are there: a high surrogate waits for a low one, and no other code may be one.
def unicodeDone (text : List UInt8) (high : Option Nat) (code : Nat) : Option Scan :=
  match high with
  | none =>
      if 0xD800 ≤ code ∧ code < 0xDC00 then some (.lowEscape text code)
      else if 0xDC00 ≤ code ∧ code < 0xE000 then none
      else some (.string (text ++ utf8Encode code) .complete)
  | some first =>
      if 0xDC00 ≤ code ∧ code < 0xE000 then
        some (.string (text ++ utf8Encode (0x10000 + (first - 0xD800) * 0x400 + (code - 0xDC00))) .complete)
      else none

def scanStep : Scan → UInt8 → Option (List Token × Scan)
  | .ground, byte => groundStep byte
  | .word [] _, _ => none
  | .word (first :: rest) value, byte =>
      if byte ≠ first then none else if rest = [] then some ([wordToken value], .ground) else some ([], .word rest value)
  | .number part text, byte =>
      match numberStep part byte with
      | some next => some ([], .number next (text ++ [byte]))
      | none => if part.ends then (groundStep byte).map fun after => (.number text :: after.1, after.2) else none
  | .string text utf8, byte =>
      if utf8 = .complete ∧ byte = 34 then some ([.string text], .ground)
      else if utf8 = .complete ∧ byte = 92 then some ([], .escape text)
      else if byte < 0x20 then none
      else (utf8Step utf8 byte).map fun next => ([], .string (text ++ [byte]) next)
  | .escape text, byte =>
      if byte = 117 then some ([], .unicode text none [])
      else (simpleEscape byte).map fun character => ([], .string (text ++ [character]) .complete)
  | .unicode text high digits, byte =>
      match hexDigit byte with
      | none => none
      | some digit =>
          if digits.length < 3 then some ([], .unicode text high (digits ++ [digit]))
          else (unicodeDone text high (unit (digits ++ [digit]))).map fun next => ([], next)
  | .lowEscape text high, byte => if byte = 92 then some ([], .lowUnicode text high) else none
  | .lowUnicode text high, byte => if byte = 117 then some ([], .unicode text (some high) []) else none

def scanRun : Scan → List UInt8 → Option (List Token × Scan)
  | scan, [] => some ([], scan)
  | scan, byte :: rest =>
      match scanStep scan byte with
      | none => none
      | some (tokens, next) => (scanRun next rest).map fun after => (tokens ++ after.1, after.2)

def scanEnd : List Token × Scan → Option (List Token)
  | (tokens, .ground) => some tokens
  | (tokens, .number part text) => if part.ends then some (tokens ++ [.number text]) else none
  | _ => none

def tokenize (text : List UInt8) : Option (List Token) := (scanRun .ground text).bind scanEnd

theorem scan_run_append (scan : Scan) (first second : List UInt8) :
    scanRun scan (first ++ second) =
      match scanRun scan first with
      | none => none
      | some (tokens, next) => (scanRun next second).map fun after => (tokens ++ after.1, after.2) := by
  induction first generalizing scan with
  | nil => simp [scanRun]
  | cons byte rest ih =>
      rw [List.cons_append, scanRun, scanRun]
      cases scanStep scan byte with
      | none => rfl
      | some stepped =>
          dsimp only
          rw [ih]
          cases scanRun stepped.2 rest with
          | none => rfl
          | some after => simp [Function.comp_def]

-- Plain text is read as it stands.
theorem scan_plain (text held : List UInt8) (utf8 next : Utf8) (unescaped : ∀ byte ∈ text, Unescaped byte)
    (run : utf8Run utf8 text = some next) : scanRun (.string held utf8) text = some ([], .string (held ++ text) next) := by
  induction text generalizing held utf8 with
  | nil =>
      rw [utf8Run, Option.some.injEq] at run
      rw [scanRun, List.append_nil, run]
  | cons byte rest ih =>
      obtain ⟨⟨noQuote, noSlash, noControl⟩, others⟩ := List.forall_mem_cons.mp unescaped
      rw [utf8Run] at run
      cases stepped : utf8Step utf8 byte with
      | none =>
          rw [stepped] at run
          cases run
      | some after =>
          rw [stepped] at run
          rw [scanRun, scanStep, if_neg (fun quote => noQuote quote.2), if_neg (fun slash => noSlash slash.2), if_neg noControl, stepped]
          dsimp only [Option.map_some]
          rw [ih (held ++ [byte]) after others run]
          simp

theorem scan_string (text held rest : List UInt8) (plain : Plain text) :
    scanRun (.string held .complete) (text ++ 34 :: rest) =
      (scanRun .ground rest).map fun after => (.string (held ++ text) :: after.1, after.2) := by
  rw [scan_run_append, scan_plain text held _ _ plain.unescaped plain.utf8]
  dsimp only
  rw [scanRun, scanStep, if_pos ⟨rfl, rfl⟩]
  simp [Function.comp_def]

-- How many bytes a token takes at least; what a scan has begun counts with the bytes it has taken.
def weight : Token → Nat
  | .string text => text.length + 2
  | _ => 1

def weights : List Token → Nat
  | [] => 0
  | token :: rest => weight token + weights rest

def pending : Scan → Nat
  | .ground => 0
  | .word _ _ => 1
  | .number _ _ => 1
  | .string text _ => text.length + 1
  | .escape text => text.length + 2
  | .unicode text none digits => text.length + 3 + digits.length
  | .unicode text (some _) digits => text.length + 9 + digits.length
  | .lowEscape text _ => text.length + 7
  | .lowUnicode text _ => text.length + 8

def Clean : Scan → Prop
  | .string text utf8 => (∀ byte ∈ text, Unescaped byte) ∧ utf8Run .complete text = some utf8
  | _ => True

def PlainTokens (tokens : List Token) : Prop := ∀ text, .string text ∈ tokens → Plain text

-- No token is longer than the bytes it was read from, and as long only where it was read as it stood.
structure Accounts (scan : Scan) (count : Nat) (after : List Token × Scan) : Prop where
  weight : weights after.1 + pending after.2 ≤ pending scan + count
  plain : Clean scan → weights after.1 + pending after.2 = pending scan + count → PlainTokens after.1 ∧ Clean after.2

theorem weights_append (first second : List Token) : weights (first ++ second) = weights first + weights second := by
  induction first with
  | nil => simp [weights]
  | cons token rest ih => rw [List.cons_append, weights, weights, ih, Nat.add_assoc]

theorem plain_tokens_append (first second : List Token) (before : PlainTokens first) (after : PlainTokens second) :
    PlainTokens (first ++ second) := by
  intro text member
  rcases List.mem_append.mp member with inFirst | inSecond
  · exact before text inFirst
  · exact after text inSecond

theorem accounts_trans (scan : Scan) (count more : Nat) (middle after : List Token × Scan) (first : Accounts scan count middle)
    (second : Accounts middle.2 more after) : Accounts scan (count + more) (middle.1 ++ after.1, after.2) where
  weight := by
    have before := first.weight
    have later := second.weight
    rw [weights_append]
    dsimp only
    omega
  plain clean exact := by
    have before := first.weight
    have later := second.weight
    rw [weights_append] at exact
    dsimp only at exact
    obtain ⟨plainFirst, cleanMiddle⟩ := first.plain clean (by omega)
    obtain ⟨plainSecond, cleanAfter⟩ := second.plain cleanMiddle (by omega)
    exact ⟨plain_tokens_append _ _ plainFirst plainSecond, cleanAfter⟩

theorem plain_tokens_nil : PlainTokens [] := by
  intro text member
  cases member

theorem plain_tokens_other (token : Token) (other : ∀ text, token ≠ .string text) : PlainTokens [token] := by
  intro text member
  exact absurd (List.mem_singleton.mp member).symm (other text)

theorem accounts_strict (scan : Scan) (count : Nat) (after : List Token × Scan)
    (short : weights after.1 + pending after.2 < pending scan + count) : Accounts scan count after :=
  ⟨Nat.le_of_lt short, fun _ exact => absurd exact (Nat.ne_of_lt short)⟩

theorem utf8_encode_length (code : Nat) : (utf8Encode code).length ≤ 4 := by
  unfold utf8Encode
  split
  · simp
  · split
    · simp
    · split <;> simp

theorem structural_weight (byte : UInt8) (token : Token) (found : structural byte = some token) :
    weight token = 1 ∧ ∀ text, token ≠ .string text := by
  unfold structural at found
  split_ifs at found <;> cases found <;> simp [weight]

theorem begins_clean (byte : UInt8) (scan : Scan) (found : begins byte = some scan) : pending scan = 1 ∧ Clean scan := by
  unfold begins at found
  split_ifs at found <;> cases found <;> simp [pending, Clean, utf8Run]

theorem ground_accounts (byte : UInt8) (after : List Token × Scan) (stepped : groundStep byte = some after) :
    weights after.1 + pending after.2 ≤ 1 ∧ PlainTokens after.1 ∧ Clean after.2 := by
  unfold groundStep at stepped
  split at stepped
  · cases stepped
    exact ⟨Nat.zero_le _, plain_tokens_nil, trivial⟩
  · cases found : structural byte with
    | some token =>
        rw [found] at stepped
        cases stepped
        obtain ⟨one, other⟩ := structural_weight byte token found
        refine ⟨?_, plain_tokens_other token other, trivial⟩
        simp [weights, one, pending]
    | none =>
        rw [found] at stepped
        obtain ⟨scan, begun, rfl⟩ := Option.map_eq_some_iff.mp stepped
        obtain ⟨one, clean⟩ := begins_clean byte scan begun
        refine ⟨?_, plain_tokens_nil, clean⟩
        simp [weights, one]

theorem utf8_run_append (utf8 middle : Utf8) (first second : List UInt8) (run : utf8Run utf8 first = some middle) :
    utf8Run utf8 (first ++ second) = utf8Run middle second := by
  induction first generalizing utf8 with
  | nil =>
      rw [utf8Run, Option.some.injEq] at run
      rw [List.nil_append, run]
  | cons byte rest ih =>
      rw [utf8Run] at run
      rw [List.cons_append, utf8Run]
      cases stepped : utf8Step utf8 byte with
      | none =>
          rw [stepped] at run
          cases run
      | some next =>
          rw [stepped] at run
          exact ih next run

theorem between_low (low high byte : UInt8) (next after : Utf8) (found : between low high byte next = some after) : low ≤ byte := by
  unfold between at found
  split at found
  · rename_i bounds
    exact bounds.1
  · cases found

-- A byte that continues a sequence is no ASCII character.
theorem utf8_step_high (utf8 next : Utf8) (byte : UInt8) (open_ : utf8 ≠ .complete) (stepped : utf8Step utf8 byte = some next) :
    0x80 ≤ byte := by
  cases utf8 with
  | complete => exact absurd rfl open_
  | afterE0 => exact UInt8.le_trans (by decide) (between_low _ _ byte _ next stepped)
  | afterF0 => exact UInt8.le_trans (by decide) (between_low _ _ byte _ next stepped)
  | _ => exact between_low _ _ byte _ next stepped

theorem string_accounts (text : List UInt8) (utf8 : Utf8) (byte : UInt8) (after : List Token × Scan)
    (stepped : scanStep (.string text utf8) byte = some after) : Accounts (.string text utf8) 1 after := by
  rw [scanStep] at stepped
  split at stepped
  · rename_i closes
    cases stepped
    refine ⟨by simp [weights, weight, pending], ?_⟩
    intro clean _
    refine ⟨?_, trivial⟩
    intro other member
    rw [List.mem_singleton, Token.string.injEq] at member
    exact member ▸ ⟨clean.1, closes.1 ▸ clean.2⟩
  · rename_i noQuote
    split at stepped
    · cases stepped
      exact ⟨by simp [weights, pending], fun _ _ => ⟨plain_tokens_nil, trivial⟩⟩
    · rename_i noSlash
      split at stepped
      · cases stepped
      · rename_i noControl
        obtain ⟨next, continues, rfl⟩ := Option.map_eq_some_iff.mp stepped
        refine ⟨by simp [weights, pending], ?_⟩
        intro clean _
        refine ⟨plain_tokens_nil, ?_, ?_⟩
        · rw [List.forall_mem_append, List.forall_mem_singleton]
          refine ⟨clean.1, ?_, ?_, noControl⟩
          · rintro rfl
            by_cases complete : utf8 = .complete
            · exact noQuote ⟨complete, rfl⟩
            · exact absurd (utf8_step_high utf8 next 34 complete continues) (by decide)
          · rintro rfl
            by_cases complete : utf8 = .complete
            · exact noSlash ⟨complete, rfl⟩
            · exact absurd (utf8_step_high utf8 next 92 complete continues) (by decide)
        · rw [utf8_run_append _ _ text [byte] clean.2, utf8Run, continues]
          rfl

theorem unicode_accounts (text : List UInt8) (high : Option Nat) (digits : List Nat) (byte : UInt8) (after : List Token × Scan)
    (stepped : scanStep (.unicode text high digits) byte = some after) : Accounts (.unicode text high digits) 1 after := by
  rw [scanStep] at stepped
  cases read : hexDigit byte with
  | none =>
      rw [read] at stepped
      cases stepped
  | some digit =>
      rw [read] at stepped
      dsimp only at stepped
      split at stepped
      · cases stepped
        cases high with
        | none => exact ⟨by simp [weights, pending]; omega, fun _ _ => ⟨plain_tokens_nil, trivial⟩⟩
        | some first => exact ⟨by simp [weights, pending]; omega, fun _ _ => ⟨plain_tokens_nil, trivial⟩⟩
      · rename_i four
        obtain ⟨next, done, rfl⟩ := Option.map_eq_some_iff.mp stepped
        unfold unicodeDone at done
        cases high with
        | none =>
            dsimp only at done
            split_ifs at done
            · cases done
              exact ⟨by simp [weights, pending]; omega, fun _ _ => ⟨plain_tokens_nil, trivial⟩⟩
            · cases done
              apply accounts_strict
              have short := utf8_encode_length (unit (digits ++ [digit]))
              simp only [weights, pending, List.length_append]
              omega
        | some first =>
            dsimp only at done
            split_ifs at done
            cases done
            apply accounts_strict
            have short := utf8_encode_length (0x10000 + (first - 0xD800) * 0x400 + (unit (digits ++ [digit]) - 0xDC00))
            simp only [weights, pending, List.length_append]
            omega

theorem step_accounts (scan : Scan) (byte : UInt8) (after : List Token × Scan) (stepped : scanStep scan byte = some after) :
    Accounts scan 1 after := by
  cases scan with
  | ground =>
      obtain ⟨small, plain, clean⟩ := ground_accounts byte after stepped
      exact ⟨by simpa [pending] using small, fun _ _ => ⟨plain, clean⟩⟩
  | word rest value =>
      cases rest with
      | nil => cases stepped
      | cons first rest =>
          rw [scanStep] at stepped
          split_ifs at stepped
          · cases stepped
            cases value with
            | none =>
              exact ⟨by simp [weights, weight, wordToken, pending],
                fun _ _ => ⟨plain_tokens_other _ (by simp [wordToken]), trivial⟩⟩
            | some value =>
              exact ⟨by simp [weights, weight, wordToken, pending],
                fun _ _ => ⟨plain_tokens_other _ (by simp [wordToken]), trivial⟩⟩
          · cases stepped
            exact ⟨by simp [weights, pending], fun _ _ => ⟨plain_tokens_nil, trivial⟩⟩
  | number part text =>
      rw [scanStep] at stepped
      cases continues : numberStep part byte with
      | some next =>
          rw [continues] at stepped
          cases stepped
          exact ⟨by simp [weights, pending], fun _ _ => ⟨plain_tokens_nil, trivial⟩⟩
      | none =>
          rw [continues] at stepped
          dsimp only at stepped
          split_ifs at stepped
          obtain ⟨ground, grounded, rfl⟩ := Option.map_eq_some_iff.mp stepped
          obtain ⟨small, plain, clean⟩ := ground_accounts byte ground grounded
          refine ⟨?_, fun _ _ => ⟨?_, clean⟩⟩
          · change 1 + weights ground.1 + pending ground.2 ≤ 1 + 1
            omega
          · exact plain_tokens_append [_] _ (plain_tokens_other _ (by simp)) plain
  | string text utf8 => exact string_accounts text utf8 byte after stepped
  | escape text =>
      rw [scanStep] at stepped
      split_ifs at stepped
      · cases stepped
        exact ⟨by simp [weights, pending], fun _ _ => ⟨plain_tokens_nil, trivial⟩⟩
      · obtain ⟨character, _, rfl⟩ := Option.map_eq_some_iff.mp stepped
        apply accounts_strict
        simp [weights, pending]
  | unicode text high digits => exact unicode_accounts text high digits byte after stepped
  | lowEscape text high =>
      rw [scanStep] at stepped
      split_ifs at stepped
      cases stepped
      exact ⟨by simp [weights, pending], fun _ _ => ⟨plain_tokens_nil, trivial⟩⟩
  | lowUnicode text high =>
      rw [scanStep] at stepped
      split_ifs at stepped
      cases stepped
      exact ⟨by simp [weights, pending], fun _ _ => ⟨plain_tokens_nil, trivial⟩⟩

theorem run_accounts (text : List UInt8) (scan : Scan) (after : List Token × Scan) (run : scanRun scan text = some after) :
    Accounts scan text.length after := by
  induction text generalizing scan after with
  | nil =>
      cases run
      exact ⟨by simp [weights], fun clean _ => ⟨plain_tokens_nil, clean⟩⟩
  | cons byte rest ih =>
      rw [scanRun] at run
      cases stepped : scanStep scan byte with
      | none =>
          rw [stepped] at run
          cases run
      | some middle =>
          rw [stepped] at run
          obtain ⟨last, later, rfl⟩ := Option.map_eq_some_iff.mp run
          have both := accounts_trans scan 1 rest.length middle last (step_accounts scan byte middle stepped) (ih middle.2 last later)
          rw [List.length_cons, Nat.add_comm]
          exact both

theorem tokenize_accounts (text : List UInt8) (tokens : List Token) (read : tokenize text = some tokens) :
    weights tokens ≤ text.length ∧ (weights tokens = text.length → PlainTokens tokens) := by
  obtain ⟨⟨before, scan⟩, run, ended⟩ := Option.bind_eq_some_iff.mp read
  have accounts := run_accounts text .ground (before, scan) run
  have weight := accounts.weight
  cases scan with
  | ground =>
      cases ended
      simp only [pending] at weight
      refine ⟨by omega, ?_⟩
      intro exact
      exact (accounts.plain trivial (by simp only [pending]; omega)).1
  | number part number =>
      rw [scanEnd] at ended
      split_ifs at ended
      cases ended
      simp only [pending] at weight
      rw [weights_append]
      refine ⟨by simp only [weights, JsonText.weight]; omega, ?_⟩
      intro exact
      have plain := (accounts.plain trivial (by simp only [pending, weights, JsonText.weight] at exact ⊢; omega)).1
      exact plain_tokens_append _ _ plain (plain_tokens_other _ (by simp))
  | _ => cases ended

end JsonText
