import PushReceiver.Harmless
import PushReceiver.Session

set_option autoImplicit false

namespace PushReceiver

-- An entry that the loop over app_data passes without leaving the handler.
structure UsableEntry (app : AppData) : Prop where
  salt : app.key = ascii "encryption" →
    Readable app.value ∧ (fieldSymbols app.value).length * 3 / 4 = eceSaltLength
  senderKey : app.key = ascii "crypto-key" →
    Readable app.value ∧ (fieldSymbols app.value).length * 3 / 4 = eceWebpushPublicKeyLength

-- The id is appended once, and the first new event is the only one that carries the list.
structure Recorded (before after : App) (persistentId : Bytes) : Prop where
  ids : after.persistentIds = before.persistentIds ++ [persistentId]
  events : ∃ later, after.emitted =
      before.emitted ++ ⟨"persistent_id", join (before.persistentIds ++ [persistentId]) (ascii ";")⟩ :: later ∧
    ∀ event ∈ later, event.name ≠ "persistent_id"

theorem keys_differ (key : Bytes) (encryption : key = ascii "encryption") : key ≠ ascii "crypto-key" := by
  rw [encryption]
  decide

theorem field_read (value : Bytes) (length : Nat) :
    (∃ decoded, decodeSecondField value = .ok decoded ∧ decoded.length = length) ↔
      Readable value ∧ (fieldSymbols value).length * 3 / 4 = length := by
  constructor
  · rintro ⟨decoded, read, isLength⟩
    exact ⟨(readable_iff value).mp ⟨decoded, read⟩, (decoded_length value decoded read).symm.trans isLength⟩
  · intro ⟨readable, isLength⟩
    obtain ⟨decoded, read⟩ := (readable_iff value).mpr readable
    exact ⟨decoded, read, (decoded_length value decoded read).trans isLength⟩

-- One entry of the scan, for either of the two keys: what the rest of the scan starts from.
theorem entry_accepts (value : Bytes) (length : Nat) (next : Bytes → Scan) (rest : Prop)
    (ih : ∀ decoded, (∃ salt rawSenderPubKey, next decoded = .accepts salt rawSenderPubKey) ↔ rest) :
    (∃ salt rawSenderPubKey, (match decodeSecondField value with
        | .error exception => Scan.throws exception
        | .ok decoded => if decoded.length ≠ length then .rejects else next decoded) = .accepts salt rawSenderPubKey) ↔
      (∃ decoded, decodeSecondField value = .ok decoded ∧ decoded.length = length) ∧ rest := by
  cases read : decodeSecondField value with
  | error exception => simp
  | ok decoded =>
      by_cases isLength : decoded.length = length
      · simp [isLength, ih]
      · simp [isLength]

theorem scan_accepts_iff (appData : List AppData) (salt rawSenderPubKey : Bytes) :
    (∃ finalSalt finalKey, scanAppData appData salt rawSenderPubKey = .accepts finalSalt finalKey) ↔
      ∀ app ∈ appData, UsableEntry app := by
  induction appData generalizing salt rawSenderPubKey with
  | nil => simp [scanAppData]
  | cons app rest ih =>
      rw [scanAppData, List.forall_mem_cons]
      by_cases encryption : app.key = ascii "encryption"
      · have usable : UsableEntry app ↔ ∃ decoded, decodeSecondField app.value = .ok decoded ∧ decoded.length = eceSaltLength := by
          rw [field_read]
          exact ⟨fun usable => usable.salt encryption, fun read => ⟨fun _ => read, fun other => absurd other (keys_differ _ encryption)⟩⟩
        rw [if_pos encryption, usable]
        exact entry_accepts app.value eceSaltLength _ _ fun decoded => ih (decoded ++ salt) rawSenderPubKey
      · by_cases cryptoKey : app.key = ascii "crypto-key"
        · have usable : UsableEntry app ↔
              ∃ decoded, decodeSecondField app.value = .ok decoded ∧ decoded.length = eceWebpushPublicKeyLength := by
            rw [field_read]
            exact ⟨fun usable => usable.senderKey cryptoKey, fun read => ⟨fun other => absurd other encryption, fun _ => read⟩⟩
          rw [if_neg encryption, if_pos cryptoKey, usable]
          exact entry_accepts app.value eceWebpushPublicKeyLength _ _ fun decoded => ih salt (decoded ++ rawSenderPubKey)
        · have usable : UsableEntry app := ⟨fun same => absurd same encryption, fun same => absurd same cryptoKey⟩
          rw [if_neg encryption, if_neg cryptoKey, ih]
          exact ⟨fun later => ⟨usable, later⟩, And.right⟩

theorem record_recorded (app : App) (persistentId : Bytes) (nonempty : persistentId ≠ []) :
    Recorded app (app.recordPersistentId persistentId) persistentId := by
  rw [App.recordPersistentId, if_neg nonempty]
  exact ⟨rfl, [], rfl, fun _ member => absurd member List.not_mem_nil⟩

theorem deliver_recorded (env : Environment) (call : Option DecryptCall) (before app : App) (persistentId : Bytes)
    (recorded : Recorded before app persistentId) : Recorded before (deliverMessage env call app) persistentId := by
  cases call with
  | none => exact recorded
  | some call =>
      rw [deliverMessage]
      by_cases decrypted : (env.decrypt call).1 = eceOk
      · obtain ⟨later, events, others⟩ := recorded.events
        rw [if_pos decrypted]
        refine ⟨recorded.ids, later ++ [⟨"message", (env.decrypt call).2⟩], ?_, ?_⟩
        · rw [App.emit, events, List.append_assoc, List.cons_append]
        · intro event member
          rcases List.mem_append.mp member with earlier | last
          · exact others event earlier
          · rw [List.mem_singleton.mp last]
            exact fun same : "message" = "persistent_id" => absurd same (by decide)
      · rw [if_neg decrypted]
        exact recorded

theorem unrecorded (app : App) (persistentId : Bytes) : ¬ Recorded app app persistentId := by
  intro recorded
  have longer := congrArg List.length recorded.ids
  simp at longer

theorem stanza_recorded_iff (env : Environment) (body : Bytes) (app : App) (stanza : DataMessageStanza)
    (parsed : env.parseDataMessageStanza body = some stanza) (received : stanza.persistentId ≠ []) :
    Recorded app (handleDataMessageStanzaTag env body app).state stanza.persistentId ↔
      ∀ entry ∈ stanza.appData, UsableEntry entry := by
  rw [← scan_accepts_iff stanza.appData [] []]
  cases scanned : scanAppData stanza.appData [] [] with
  | throws exception =>
      simp only [handleDataMessageStanzaTag, parsed, scanned, Outcome.state]
      exact iff_of_false (unrecorded app stanza.persistentId) (by simp)
  | rejects =>
      simp only [handleDataMessageStanzaTag, parsed, scanned, Outcome.state]
      exact iff_of_false (unrecorded app stanza.persistentId) (by simp)
  | accepts salt rawSenderPubKey =>
      rw [handle_passes env body app stanza salt rawSenderPubKey parsed scanned]
      refine iff_of_true ?_ ⟨salt, rawSenderPubKey, rfl⟩
      exact deliver_recorded env _ app _ _ (record_recorded app stanza.persistentId received)

def sealedEntries : List AppData :=
  [⟨ascii "encryption", ascii "salt=" ++ List.replicate 22 65⟩, ⟨ascii "crypto-key", ascii "dh=" ++ List.replicate 87 65⟩]

-- A stanza with the id "a" that carries a salt and a sender key of their lengths.
def sealedBytes : Bytes :=
  [0x1A, 1, 0x66, 0x2A, 1, 0x63, 0x3A, 41, 0x0A, 10] ++ ascii "encryption" ++ [0x12, 27] ++ ascii "salt=" ++
    List.replicate 22 65 ++ [0x3A, 104, 0x0A, 10] ++ ascii "crypto-key" ++ [0x12, 90] ++ ascii "dh=" ++
    List.replicate 87 65 ++ [0x4A, 1, 0x61]

def sealedEnvironment : Environment where
  parseLoginResponse _ := none
  parseDataMessageStanza bytes := if bytes = sealedBytes then some ⟨sealedEntries, ascii "a", []⟩ else none
  parseHeartbeatAck _ := none
  rawSubPrivKey := List.replicate 32 1
  authSecret := List.replicate 16 2
  decrypt _ := (-1, [])

theorem sealed_usable : ∀ entry ∈ sealedEntries, UsableEntry entry := by
  intro entry member
  rcases List.mem_pair.mp member with rfl | rfl
  · exact ⟨fun _ => ⟨⟨by decide, by decide +kernel, by decide +kernel⟩, by decide +kernel⟩, fun same => absurd same (by decide)⟩
  · exact ⟨fun same => absurd same (by decide), fun _ => ⟨⟨by decide, by decide +kernel, by decide +kernel⟩, by decide +kernel⟩⟩

theorem stanza_recorded_sealed :
    Recorded (App.loaded []) (handleDataMessageStanzaTag sealedEnvironment sealedBytes (App.loaded [])).state (ascii "a") :=
  (stanza_recorded_iff sealedEnvironment sealedBytes (App.loaded []) ⟨sealedEntries, ascii "a", []⟩ rfl (by decide)).mpr
    sealed_usable

-- A stanza with the id "a" whose salt is three bytes long.
def shortSaltBytes : Bytes :=
  [0x1A, 1, 0x66, 0x2A, 1, 0x63, 0x3A, 23, 0x0A, 10] ++ ascii "encryption" ++ [0x12, 9] ++ ascii "salt=AAAA" ++ [0x4A, 1, 0x61]

def shortSaltEnvironment : Environment where
  parseLoginResponse _ := none
  parseDataMessageStanza bytes :=
    if bytes = shortSaltBytes then some ⟨[⟨ascii "encryption", ascii "salt=AAAA"⟩], ascii "a", []⟩ else none
  parseHeartbeatAck _ := none
  rawSubPrivKey := List.replicate 32 1
  authSecret := List.replicate 16 2
  decrypt _ := (-1, [])

theorem short_salt_unrecorded :
    shortSaltEnvironment.parseDataMessageStanza shortSaltBytes =
        some ⟨[⟨ascii "encryption", ascii "salt=AAAA"⟩], ascii "a", []⟩ ∧
      handleDataMessageStanzaTag shortSaltEnvironment shortSaltBytes (App.loaded []) = .returns (App.loaded []) ∧
      ¬ Recorded (App.loaded []) (handleDataMessageStanzaTag shortSaltEnvironment shortSaltBytes (App.loaded [])).state
        (ascii "a") := by
  have dropped : handleDataMessageStanzaTag shortSaltEnvironment shortSaltBytes (App.loaded []) = .returns (App.loaded []) := by
    decide +kernel
  refine ⟨rfl, dropped, ?_⟩
  rw [dropped]
  exact unrecorded (App.loaded []) (ascii "a")

end PushReceiver
