import PushReceiver.ClientBounds
import PushReceiver.Recorded

set_option autoImplicit false

namespace PushReceiver

-- Both header values are there and can be used, so that the raw_data gets to the decryption.
structure Sealed (stanza : DataMessageStanza) : Prop where
  usable : ∀ entry ∈ stanza.appData, UsableEntry entry
  salt : ∃ entry ∈ stanza.appData, entry.key = ascii "encryption"
  senderKey : ∃ entry ∈ stanza.appData, entry.key = ascii "crypto-key"

-- ece_webpush_aesgcm_decrypt writes nothing behind plainText, whatever the cipher makes of the message.
def DecryptsInside (env : Environment) (stanza : DataMessageStanza) : Prop :=
  ∀ call, passedToDecrypt env stanza = some call → ∀ (Scalar Point : Type) (ssl : OpenSsl Scalar Point), ssl.Streaming →
    eceWebpushAesgcmDecryptInto ssl call (List.replicate call.plaintextLen 0) ≠ .error .overrun

def StaysInBuffer (env : Environment) (body : Bytes) : Prop :=
  ∀ stanza, env.parseDataMessageStanza body = some stanza → DecryptsInside env stanza

-- Full records may be followed by a short one only where their padding sizes make up for its tag.
def FitsBuffer (env : Environment) (body : Bytes) : Prop :=
  ∀ stanza, env.parseDataMessageStanza body = some stanza → Sealed stanza →
    stanza.rawData.length ≤ 4112 ∨ stanza.rawData.length % 4112 = 0 ∨
      16 ≤ stanza.rawData.length % 4112 + (stanza.rawData.length / 4112 - 1) * 2

-- What the scan has put in front of the values it started from.
structure Gathered (key : Bytes) (length : Nat) (appData : List AppData) (before after : Bytes) : Prop where
  found : (∃ entry ∈ appData, entry.key = key) → length ≤ after.length
  missing : (¬ ∃ entry ∈ appData, entry.key = key) → after = before
  grows : before.length ≤ after.length

theorem gathered_nil (key : Bytes) (length : Nat) (value : Bytes) : Gathered key length [] value value :=
  ⟨fun ⟨_, member, _⟩ => absurd member List.not_mem_nil, fun _ => rfl, Nat.le_refl _⟩

theorem gathered_other (key : Bytes) (length : Nat) (app : AppData) (rest : List AppData) (before after : Bytes)
    (other : app.key ≠ key) (gathered : Gathered key length rest before after) :
    Gathered key length (app :: rest) before after := by
  have same : (∃ entry ∈ app :: rest, entry.key = key) ↔ ∃ entry ∈ rest, entry.key = key := by simp [other]
  exact ⟨fun found => gathered.found (same.mp found), fun missing => gathered.missing (missing ∘ same.mpr), gathered.grows⟩

theorem gathered_here (key : Bytes) (app : AppData) (rest : List AppData) (decoded before after : Bytes)
    (here : app.key = key) (gathered : Gathered key decoded.length rest (decoded ++ before) after) :
    Gathered key decoded.length (app :: rest) before after := by
  have longer := gathered.grows
  rw [List.length_append] at longer
  exact ⟨fun _ => by omega, fun missing => absurd ⟨app, List.mem_cons_self, here⟩ missing, by omega⟩

theorem scan_gathers (appData : List AppData) (salt rawSenderPubKey finalSalt finalKey : Bytes)
    (scanned : scanAppData appData salt rawSenderPubKey = .accepts finalSalt finalKey) :
    Gathered (ascii "encryption") eceSaltLength appData salt finalSalt ∧
      Gathered (ascii "crypto-key") eceWebpushPublicKeyLength appData rawSenderPubKey finalKey := by
  induction appData generalizing salt rawSenderPubKey with
  | nil =>
      obtain ⟨rfl, rfl⟩ := Scan.accepts.inj scanned
      exact ⟨gathered_nil _ _ _, gathered_nil _ _ _⟩
  | cons app rest ih =>
      rw [scanAppData] at scanned
      by_cases encryption : app.key = ascii "encryption"
      · rw [if_pos encryption] at scanned
        cases read : decodeSecondField app.value with
        | error exception => simp [read] at scanned
        | ok decoded =>
            simp only [read] at scanned
            by_cases length : decoded.length = eceSaltLength
            · rw [if_neg (not_not.mpr length)] at scanned
              obtain ⟨saltRest, keyRest⟩ := ih _ _ scanned
              rw [← length] at saltRest ⊢
              exact ⟨gathered_here _ app rest decoded salt finalSalt encryption saltRest,
                gathered_other _ _ app rest _ _ (keys_differ _ encryption) keyRest⟩
            · rw [if_pos length] at scanned
              cases scanned
      · rw [if_neg encryption] at scanned
        by_cases cryptoKey : app.key = ascii "crypto-key"
        · rw [if_pos cryptoKey] at scanned
          cases read : decodeSecondField app.value with
          | error exception => simp [read] at scanned
          | ok decoded =>
              simp only [read] at scanned
              by_cases length : decoded.length = eceWebpushPublicKeyLength
              · rw [if_neg (not_not.mpr length)] at scanned
                obtain ⟨saltRest, keyRest⟩ := ih _ _ scanned
                rw [← length] at keyRest ⊢
                exact ⟨gathered_other _ _ app rest _ _ encryption saltRest,
                  gathered_here _ app rest decoded rawSenderPubKey finalKey cryptoKey keyRest⟩
              · rw [if_pos length] at scanned
                cases scanned
        · rw [if_neg cryptoKey] at scanned
          obtain ⟨saltRest, keyRest⟩ := ih _ _ scanned
          exact ⟨gathered_other _ _ app rest _ _ encryption saltRest, gathered_other _ _ app rest _ _ cryptoKey keyRest⟩

theorem gathered_nonempty (key : Bytes) (length : Nat) (positive : 0 < length) (appData : List AppData) (after : Bytes)
    (gathered : Gathered key length appData [] after) : after ≠ [] ↔ ∃ entry ∈ appData, entry.key = key := by
  constructor
  · intro nonempty
    by_contra missing
    exact nonempty (gathered.missing missing)
  · rintro found rfl
    exact absurd (gathered.found found) (Nat.not_le.mpr positive)

theorem passed_sealed (env : Environment) (stanza : DataMessageStanza) (call : DecryptCall)
    (passed : passedToDecrypt env stanza = some call) : Sealed stanza := by
  rw [passedToDecrypt] at passed
  cases scanned : scanAppData stanza.appData [] [] with
  | rejects => simp [scanned] at passed
  | throws exception => simp [scanned] at passed
  | accepts salt rawSenderPubKey =>
      obtain ⟨salts, keys⟩ := scan_gathers stanza.appData [] [] salt rawSenderPubKey scanned
      simp only [scanned, decryptCall] at passed
      split at passed
      · cases passed
      · rename_i present
        obtain ⟨saltPresent, others⟩ := not_or.mp present
        exact ⟨(scan_accepts_iff stanza.appData [] []).mp ⟨salt, rawSenderPubKey, scanned⟩,
          (gathered_nonempty _ _ (by decide) _ _ salts).mp saltPresent,
          (gathered_nonempty _ _ (by decide) _ _ keys).mp (not_or.mp others).1⟩

theorem sealed_passed (env : Environment) (stanza : DataMessageStanza) (isSealed : Sealed stanza)
    (room : eceAesgcmPlaintextMaxLength rsLength stanza.rawData.length ≠ 0) (nonempty : stanza.rawData ≠ []) :
    ∃ call, passedToDecrypt env stanza = some call ∧ call.authSecret = env.authSecret.take eceWebpushAuthSecretLength ∧
      call.salt.length = eceSaltLength := by
  obtain ⟨salt, rawSenderPubKey, scanned⟩ := (scan_accepts_iff stanza.appData [] []).mpr isSealed.usable
  obtain ⟨salts, keys⟩ := scan_gathers stanza.appData [] [] salt rawSenderPubKey scanned
  have saltPresent := (gathered_nonempty _ _ (by decide) _ _ salts).mpr isSealed.salt
  have keyPresent := (gathered_nonempty _ _ (by decide) _ _ keys).mpr isSealed.senderKey
  have present : ¬ (salt = [] ∨ rawSenderPubKey = [] ∨ stanza.rawData = []) :=
    not_or.mpr ⟨saltPresent, not_or.mpr ⟨keyPresent, nonempty⟩⟩
  refine ⟨_, by simp only [passedToDecrypt, scanned, decryptCall, if_neg present, if_neg room]; rfl, rfl, ?_⟩
  exact List.length_take_of_le (salts.found isSealed.salt)

theorem sealed_inside (env : Environment) (stanza : DataMessageStanza)
    (stays : Sealed stanza → aesgcmPadding.StaysInside 4112 stanza.rawData.length) : DecryptsInside env stanza :=
  fun call passed _ _ ssl streaming =>
    call_inside ssl streaming env stanza call passed (stays (passed_sealed env stanza call passed))

theorem fits_inside (env : Environment) (body : Bytes) (fits : FitsBuffer env body) : StaysInBuffer env body :=
  fun stanza parsed => sealed_inside env stanza fun isSealed => (client_stays _).mpr (fits stanza parsed isSealed)

theorem decrypts_inside_iff (env : Environment) (authLength : env.authSecret.length = eceWebpushAuthSecretLength)
    (stanza : DataMessageStanza) :
    DecryptsInside env stanza ↔ (Sealed stanza → aesgcmPadding.StaysInside 4112 stanza.rawData.length) := by
  refine ⟨fun inside isSealed => ?_, sealed_inside env stanza⟩
  by_contra leaves
  have room : eceAesgcmPlaintextMaxLength rsLength stanza.rawData.length ≠ 0 := by
    rw [client_query]
    exact query_positive aesgcmPadding 4112 _ leaves
  have nonempty : stanza.rawData ≠ [] := by
    intro empty
    rw [empty] at room
    exact room (by decide)
  obtain ⟨call, passed, authSecret, saltLength⟩ := sealed_passed env stanza isSealed room nonempty
  refine inside call passed Unit Unit aesgcmPadding.bareSsl (bare_streaming aesgcmPadding)
    (bare_call_overruns env stanza call passed ?_ saltLength leaves)
  rw [authSecret, List.length_take, authLength, Nat.min_self]

theorem stays_in_buffer_iff (env : Environment) (authLength : env.authSecret.length = eceWebpushAuthSecretLength)
    (body : Bytes) : StaysInBuffer env body ↔ FitsBuffer env body := by
  refine forall₂_congr fun stanza _ => ?_
  rw [decrypts_inside_iff env authLength, client_stays]

-- The constructor refuses an auth secret of another length.
theorem stanzas_processed_iff (target : Target) (env : Environment)
    (authLength : env.authSecret.length = eceWebpushAuthSecretLength) (app : App) (results : List Received) :
    (∀ earlier chunk waiting entry, earlier ++ [.bytes chunk] <+: results →
        EntersAt target env.handlers (Client.fresh app) earlier chunk waiting entry →
        entry.messageTag = dataMessageStanzaTag →
        Processed env waiting (receiveLoop target env.handlers (Client.fresh app) (earlier ++ [.bytes chunk])) ∧
          StaysInBuffer env entry.bytes) ↔
      ∀ entry ∈ (receiveLoop target env.handlers (Client.fresh app) results).client.dispatched,
        entry.messageTag = dataMessageStanzaTag → Harmless env entry.bytes ∧ FitsBuffer env entry.bytes := by
  rw [← entered_iff target env.handlers (Client.fresh app) rfl results]
  refine forall₅_congr fun earlier chunk waiting entry within => ?_
  refine forall₂_congr fun enters tag => ?_
  rw [processed_iff target env app earlier chunk waiting entry enters tag, stays_in_buffer_iff env authLength]

theorem hello_harmless : Harmless helloEnvironment (ascii "hello stanza") := by
  by_contra poison
  obtain ⟨exception, scanned⟩ := (scan_throws_iff helloStanza.appData [] []).mpr poison
  have accepted := headers_scanned helloStanza.appData (counting 16 16) helloSenderPubKey (by decide +kernel)
    (by decide +kernel) (List.Perm.swap _ _ _)
  rw [accepted] at scanned
  cases scanned

def helloResults : List Received := [.bytes [41, 8, 12], .bytes (ascii "hello stanza")]

theorem stanzas_processed_hello :
    (receiveLoop .x64 helloEnvironment.handlers (Client.fresh (App.loaded [])) helloResults).client.dispatched =
        [⟨8, 12, ascii "hello stanza"⟩] ∧
      ∀ earlier chunk waiting entry, earlier ++ [.bytes chunk] <+: helloResults →
        EntersAt .x64 helloEnvironment.handlers (Client.fresh (App.loaded [])) earlier chunk waiting entry →
        entry.messageTag = dataMessageStanzaTag →
        Processed helloEnvironment waiting
            (receiveLoop .x64 helloEnvironment.handlers (Client.fresh (App.loaded [])) (earlier ++ [.bytes chunk])) ∧
          StaysInBuffer helloEnvironment entry.bytes := by
  have entries : (receiveLoop .x64 helloEnvironment.handlers (Client.fresh (App.loaded [])) helloResults).client.dispatched =
      [⟨8, 12, ascii "hello stanza"⟩] := by decide +kernel
  refine ⟨entries, (stanzas_processed_iff .x64 helloEnvironment (by decide +kernel) (App.loaded []) helloResults).mpr ?_⟩
  intro entry member _
  rw [entries] at member
  obtain rfl := List.mem_singleton.mp member
  refine ⟨hello_harmless, fun stanza parsed _ => .inl ?_⟩
  obtain rfl : helloStanza = stanza := Option.some.inj parsed
  decide +kernel

theorem poison_message_throws :
    ∃ client, receiveLoop .x64 poisonEnvironment.handlers (Client.fresh (App.loaded []))
        ([[41, 8, 23], poisonBytes].map .bytes) = .throws .outOfRange client ∧
      client.dispatched = [⟨8, 23, poisonBytes⟩] :=
  ⟨_, rfl, rfl⟩

end PushReceiver
