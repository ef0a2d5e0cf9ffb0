import PushReceiver.Entries
import PushReceiver.Framing
import PushReceiver.Stanza

set_option autoImplicit false

namespace PushReceiver

-- What stands between the first equal sign of a header value and the next one, linebreaks left out.
def secondField (value : Bytes) : Bytes := ((value.dropWhile (· ≠ equalSign)).drop 1).takeWhile (· ≠ equalSign)

def fieldSymbols (value : Bytes) : Bytes := (secondField value).filter (· ≠ 10)

-- A letter, a digit, or one of the two further characters of either alphabet.
def IsBase64 (chr : UInt8) : Prop :=
  (65 ≤ chr ∧ chr ≤ 90) ∨ (97 ≤ chr ∧ chr ≤ 122) ∨ (48 ≤ chr ∧ chr ≤ 57) ∨ chr = 43 ∨ chr = 45 ∨ chr = 47 ∨ chr = 95

instance (chr : UInt8) : Decidable (IsBase64 chr) :=
  inferInstanceAs (Decidable ((65 ≤ chr ∧ chr ≤ 90) ∨ (97 ≤ chr ∧ chr ≤ 122) ∨ (48 ≤ chr ∧ chr ≤ 57) ∨
    chr = 43 ∨ chr = 45 ∨ chr = 47 ∨ chr = 95))

structure Readable (value : Bytes) : Prop where
  field : equalSign ∈ value
  symbols : ∀ chr ∈ fieldSymbols value, IsBase64 chr
  whole : (fieldSymbols value).length % 4 ≠ 1

-- The entries up to and with the first one whose value has not the right length are readable.
def HarmlessEntries : List AppData → Prop
  | [] => True
  | app :: rest =>
      if app.key = ascii "encryption" then
        Readable app.value ∧ ((fieldSymbols app.value).length * 3 / 4 = eceSaltLength → HarmlessEntries rest)
      else if app.key = ascii "crypto-key" then
        Readable app.value ∧ ((fieldSymbols app.value).length * 3 / 4 = eceWebpushPublicKeyLength → HarmlessEntries rest)
      else HarmlessEntries rest

def Harmless (env : Environment) (body : Bytes) : Prop :=
  match env.parseDataMessageStanza body with
  | none => True
  | some stanza => HarmlessEntries stanza.appData

theorem second_field (value : Bytes) (field : equalSign ∈ value) : (split value equalSign)[1]? = some (secondField value) := by
  obtain ⟨before, after, rfl, absent⟩ := first_delimiter value equalSign field
  rw [split_second before after equalSign absent, secondField,
    List.dropWhile_append_of_pos (each_differs before equalSign absent)]
  simp

theorem second_field_plain (value : Bytes) : trailingChar ∉ secondField value := by
  intro member
  have kept := List.mem_takeWhile_imp member
  simp [equalSign, trailingChar] at kept

theorem char_value_known (chr : UInt8) : (∃ position, charValue chr = some position) ↔ IsBase64 chr := by
  unfold charValue posOfChar IsBase64
  by_cases upper : 65 ≤ chr ∧ chr ≤ 90
  · simp [upper, Except.toOption]
  · by_cases lower : 97 ≤ chr ∧ chr ≤ 122
    · simp [upper, lower, Except.toOption]
    · by_cases digit : 48 ≤ chr ∧ chr ≤ 57
      · simp [upper, lower, digit, Except.toOption]
      · rw [if_neg upper, if_neg lower, if_neg digit]
        by_cases last : chr = 43 ∨ chr = 45
        · rcases last with rfl | rfl <;> simp [Except.toOption]
        · by_cases slash : chr = 47 ∨ chr = 95
          · rcases slash with rfl | rfl <;> simp [Except.toOption]
          · rw [not_or] at last slash
            simp [upper, lower, digit, last, slash, Except.toOption]

theorem decode_second_field (value decoded : Bytes) :
    decodeSecondField value = .ok decoded ↔
      equalSign ∈ value ∧ Radix64.decode charValue (fieldSymbols value) = some decoded := by
  by_cases field : equalSign ∈ value
  · rw [decodeSecondField, second_field value field, fieldSymbols,
      ← base64_decode_plain (secondField value) (second_field_plain value)]
    constructor
    · intro read
      exact ⟨field, by rw [show base64Decode (secondField value) = .ok decoded from read]; rfl⟩
    · exact fun read => except_ok _ decoded read.2
  · rw [decodeSecondField, split_second_none value equalSign field]
    constructor
    · exact nofun
    · exact fun read => absurd read.1 field

theorem readable_iff (value : Bytes) : (∃ decoded, decodeSecondField value = .ok decoded) ↔ Readable value := by
  have symbols : (∀ chr ∈ fieldSymbols value, ∃ position, charValue chr = some position) ↔
      ∀ chr ∈ fieldSymbols value, IsBase64 chr :=
    forall₂_congr fun chr _ => char_value_known chr
  simp only [decode_second_field, exists_and_left, Radix64.decode_some_iff, symbols]
  constructor
  · rintro ⟨field, whole, known⟩
    exact ⟨field, known, whole⟩
  · rintro ⟨field, known, whole⟩
    exact ⟨field, whole, known⟩

theorem decoded_length (value decoded : Bytes) (read : decodeSecondField value = .ok decoded) :
    decoded.length = (fieldSymbols value).length * 3 / 4 :=
  Radix64.decode_length charValue (fieldSymbols value) decoded ((decode_second_field value decoded).mp read).2

theorem scan_throws_iff (appData : List AppData) (salt rawSenderPubKey : Bytes) :
    (∃ exception, scanAppData appData salt rawSenderPubKey = .throws exception) ↔ ¬ HarmlessEntries appData := by
  induction appData generalizing salt rawSenderPubKey with
  | nil => simp [scanAppData, HarmlessEntries]
  | cons app rest ih =>
      have unreadable : ∀ exception, decodeSecondField app.value = .error exception → ¬ Readable app.value := by
        intro exception failed readable
        obtain ⟨decoded, read⟩ := (readable_iff app.value).mpr readable
        rw [failed] at read
        cases read
      by_cases encryption : app.key = ascii "encryption"
      · rw [scanAppData, HarmlessEntries, if_pos encryption, if_pos encryption]
        cases read : decodeSecondField app.value with
        | error exception => simp [unreadable exception read]
        | ok decoded =>
            have readable := (readable_iff app.value).mp ⟨decoded, read⟩
            rw [← decoded_length app.value decoded read]
            by_cases length : decoded.length = eceSaltLength
            · simp [readable, length, ih]
            · simp [readable, length]
      · by_cases cryptoKey : app.key = ascii "crypto-key"
        · rw [scanAppData, HarmlessEntries, if_neg encryption, if_neg encryption, if_pos cryptoKey, if_pos cryptoKey]
          cases read : decodeSecondField app.value with
          | error exception => simp [unreadable exception read]
          | ok decoded =>
              have readable := (readable_iff app.value).mp ⟨decoded, read⟩
              rw [← decoded_length app.value decoded read]
              by_cases length : decoded.length = eceWebpushPublicKeyLength
              · simp [readable, length, ih]
              · simp [readable, length]
        · rw [scanAppData, HarmlessEntries, if_neg encryption, if_neg encryption, if_neg cryptoKey, if_neg cryptoKey]
          exact ih salt rawSenderPubKey

def App.messages (app : App) : List Bytes := (app.emitted.filter (·.name = "message")).map (·.message)

def Dropped (before after : App) : Prop := after.messages = before.messages

def Delivered (env : Environment) (before after : App) : Prop :=
  ∃ call, (env.decrypt call).1 = eceOk ∧ after.messages = before.messages ++ [(env.decrypt call).2]

-- The loop is back in Receive between two frames, and the message was delivered or dropped.
def Processed (env : Environment) (waiting : Client App) (state : LoopState App) : Prop :=
  ∃ next, state = .receives next ∧ next.state = .mcsTagAndSize ∧ next.bytesReadFromServer = [] ∧
    (Delivered env waiting.app next.app ∨ Dropped waiting.app next.app)

theorem record_messages (app : App) (persistentId : Bytes) : (app.recordPersistentId persistentId).messages = app.messages := by
  rw [App.recordPersistentId]
  split
  · rfl
  · simp [App.messages, App.emit]

theorem deliver_messages (env : Environment) (call : Option DecryptCall) (app : App) :
    Delivered env app (deliverMessage env call app) ∨ Dropped app (deliverMessage env call app) := by
  cases call with
  | none => exact .inr rfl
  | some call =>
      rw [deliverMessage]
      by_cases decrypted : (env.decrypt call).1 = eceOk
      · rw [if_pos decrypted]
        exact .inl ⟨call, decrypted, by simp [App.messages, App.emit]⟩
      · rw [if_neg decrypted]
        exact .inr rfl

theorem stanza_returns (env : Environment) (body : Bytes) (app : App) (harmless : Harmless env body) :
    ∃ next, handleDataMessageStanzaTag env body app = .returns next ∧ (Delivered env app next ∨ Dropped app next) := by
  unfold Harmless at harmless
  unfold handleDataMessageStanzaTag
  cases parsed : env.parseDataMessageStanza body with
  | none => exact ⟨app, rfl, .inr rfl⟩
  | some stanza =>
      rw [parsed] at harmless
      cases scanned : scanAppData stanza.appData [] [] with
      | throws exception => exact absurd harmless ((scan_throws_iff stanza.appData [] []).mp ⟨exception, scanned⟩)
      | rejects => exact ⟨app, by simp only [scanned], .inr rfl⟩
      | accepts salt rawSenderPubKey =>
          simp only [scanned]
          refine ⟨_, rfl, ?_⟩
          have delivered := deliver_messages env (decryptCall env salt rawSenderPubKey stanza.rawData)
            (app.recordPersistentId stanza.persistentId)
          simpa only [Delivered, Dropped, record_messages] using delivered

theorem stanza_throws (env : Environment) (body : Bytes) (app : App) (poison : ¬ Harmless env body) :
    ∃ exception, handleDataMessageStanzaTag env body app = .throws exception app := by
  unfold Harmless at poison
  unfold handleDataMessageStanzaTag
  cases parsed : env.parseDataMessageStanza body with
  | none =>
      rw [parsed] at poison
      exact absurd trivial poison
  | some stanza =>
      rw [parsed] at poison
      obtain ⟨exception, scanned⟩ := (scan_throws_iff stanza.appData [] []).mpr poison
      exact ⟨exception, by simp only [scanned]⟩

theorem head_between (target : Target) (client : Client App) (state : client.state = .mcsTagAndSize)
    (buffer : client.bytesReadFromServer = []) : loopHead target client = .receives client.compute := by
  have need := need_tag target client state
  apply head_requests target client
  · rw [need, buffer]
    exact Nat.zero_lt_two
  · rw [need]
    exact Nat.le_trans (by decide) (max_size_lower target)

theorem entered_processed_iff (target : Target) (env : Environment) (waiting entering : Client App)
    (app : entering.app = waiting.app) (tag : entering.messageTag = dataMessageStanzaTag) :
    Processed env waiting (proceed target (gotMessageBytes env.handlers entering)) ↔ Harmless env entering.bytesReadFromServer := by
  have handled := handle_stanza env (entering.messageTag, entering.bytesReadFromServer) entering.app tag
  by_cases harmless : Harmless env entering.bytesReadFromServer
  · obtain ⟨next, returned, delivered⟩ := stanza_returns env entering.bytesReadFromServer entering.app harmless
    refine iff_of_true ?_ harmless
    rw [gotMessageBytes, handled, returned]
    refine ⟨_, head_between target _ rfl rfl, rfl, rfl, ?_⟩
    rw [← app]
    exact delivered
  · obtain ⟨exception, threw⟩ := stanza_throws env entering.bytesReadFromServer entering.app harmless
    refine iff_of_false ?_ harmless
    rw [gotMessageBytes, handled, threw]
    rintro ⟨next, receives, _⟩
    cases receives

theorem processed_iff (target : Target) (env : Environment) (app : App) (earlier : List Received) (chunk : Bytes)
    (waiting : Client App) (entry : Dispatch)
    (enters : EntersAt target env.handlers (Client.fresh app) earlier chunk waiting entry)
    (tag : entry.messageTag = dataMessageStanzaTag) :
    Processed env waiting (receiveLoop target env.handlers (Client.fresh app) (earlier ++ [.bytes chunk])) ↔
      Harmless env entry.bytes := by
  obtain ⟨entering, sameApp, rfl, step⟩ := enters_at target env.handlers (Client.fresh app) earlier chunk waiting entry enters
  rw [step]
  exact entered_processed_iff target env waiting entering sameApp tag

-- A stanza whose only entry is an "encryption" of the one character 'x'.
def poisonBytes : Bytes :=
  [0x1A, 1, 0x66, 0x2A, 1, 0x63, 0x3A, 15, 0x0A, 10] ++ ascii "encryption" ++ [0x12, 1, 0x78]

def poisonEnvironment : Environment where
  parseLoginResponse _ := none
  parseDataMessageStanza bytes :=
    if bytes = poisonBytes then some ⟨[⟨ascii "encryption", ascii "x"⟩], [], []⟩ else none
  parseHeartbeatAck _ := none
  rawSubPrivKey := List.replicate 32 1
  authSecret := List.replicate 16 2
  decrypt _ := (-1, [])

end PushReceiver
