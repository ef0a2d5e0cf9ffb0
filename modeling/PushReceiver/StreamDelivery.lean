import PushReceiver.Lookahead
import PushReceiver.Poison
import PushReceiver.Screen

set_option autoImplicit false

namespace PushReceiver

variable {Scalar Point : Type}

-- Where the library's call stays inside the buffer the client has made, its report is what the
-- client gets.
def DecryptsWith (ssl : OpenSsl Scalar Point) (env : Environment) : Prop :=
  ∀ call result,
    reported call.plaintextLen (written (eceWebpushAesgcmDecryptInto ssl call (List.replicate call.plaintextLen 0))) = some result →
      env.decrypt call = result

-- What the library's call leaves in the client's buffer, where it succeeds.
def plaintextsOf (ssl : OpenSsl Scalar Point) (call : DecryptCall) : List Bytes :=
  match eceWebpushAesgcmDecryptInto ssl call (List.replicate call.plaintextLen 0) with
  | .ok (length, buffer) => [buffer.take length]
  | .error _ => []

def decryptedFrom (ssl : OpenSsl Scalar Point) (env : Environment) (entry : Dispatch) : List Bytes :=
  if entry.messageTag = dataMessageStanzaTag then
    match env.parseDataMessageStanza entry.bytes with
    | none => []
    | some stanza =>
        match passedToDecrypt env stanza with
        | none => []
        | some call => plaintextsOf ssl call
  else []

-- A stanza that some sender made of a plaintext for the owner of this key.
structure Sent (ssl : OpenSsl Scalar Point) (env : Environment) (rawRecvPubKey : Bytes) where
  target : Target
  sender : Scalar
  senderPoint : Point
  rawSenderPrivKey : Bytes
  rawSenderPubKey : Bytes
  salt : Bytes
  plaintext : Bytes
  padLen : Nat
  ciphertextLen : Nat
  body : Bytes
  stanza : DataMessageStanza
  senderPair : KeyPair ssl rawSenderPrivKey rawSenderPubKey sender senderPoint
  encrypted : eceWebpushAesgcmEncryptWithKeys target ssl rawSenderPrivKey env.authSecret salt rawRecvPubKey rsLength padLen
    plaintext ciphertextLen = .ok (rawSenderPubKey, stanza.rawData)
  carried : (stanza.appData.filter isHeaderEntry).Perm
    [⟨ascii "encryption", ascii "salt=" ++ eceBase64urlEncode salt⟩,
      ⟨ascii "crypto-key", ascii "dh=" ++ eceBase64urlEncode rawSenderPubKey⟩]
  parsed : env.parseDataMessageStanza body = some stanza
  bounded : body.length < 2147483648

-- Any other frame: its handler returns, and shows nothing.
structure Quiet (env : Environment) extends Message where
  quiet : ∀ app, ∃ next, env.handlers.handle tag body app = .returns next ∧ next.messages = app.messages

inductive Inbound (ssl : OpenSsl Scalar Point) (env : Environment) (rawRecvPubKey : Bytes) where
  | sent (stanza : Sent ssl env rawRecvPubKey)
  | quiet (frame : Quiet env)

variable {ssl : OpenSsl Scalar Point} {env : Environment} {rawRecvPubKey : Bytes}

def Inbound.message : Inbound ssl env rawRecvPubKey → Message
  | .sent stanza => ⟨dataMessageStanzaTag, stanza.body, stanza.bounded⟩
  | .quiet frame => frame.toMessage

def Inbound.plaintexts : Inbound ssl env rawRecvPubKey → List Bytes
  | .sent stanza => [stanza.plaintext]
  | .quiet _ => []

-- Receive gives no more than it is asked for, and does not fail.
def Answered (target : Target) (env : Environment) (state : LoopState App) : LoopEvent → Prop
  | .result .socketError => False
  | .result (.bytes chunk) => chunk.length ≤ (receiver target env.handlers).request state
  | .timer _ => True

def bytesOf : LoopEvent → Bytes
  | .result (.bytes chunk) => chunk
  | _ => []

-- The bytes a run has received.
def inbound (trace : List (LoopState App × LoopEvent)) : Bytes := trace.flatMap fun taken => bytesOf taken.2

theorem request_forget (target : Target) (env : Environment) (state : LoopState App) :
    (receiver target (screenHandlers env)).request (state.forget App.messages) =
      (receiver target env.handlers).request state := by
  cases state with
  | receives client => rfl
  | spins client => rfl
  | breaks client => rfl
  | throws exception client => rfl

theorem answered_respects (target : Target) (env : Environment) (trace : List (LoopState App × LoopEvent))
    (state : LoopState App) (run : Transition.Run (timedLoop target env) trace state)
    (answered : ∀ taken ∈ trace, Answered target env taken.1 taken.2) :
    ∃ chunks : List Bytes, results trace = chunks.map .bytes ∧ chunks.flatten = inbound trace ∧
      Reader.Respects (receiver target (screenHandlers env)) (loopHead target (Client.fresh [])) chunks := by
  induction run with
  | start state initial => exact ⟨[], rfl, rfl, trivial⟩
  | step trace state event next run taken ih =>
      obtain ⟨earlier, here⟩ := List.forall_mem_append.mp answered
      obtain ⟨chunks, isResults, bytes, respects⟩ := ih earlier
      have answer := List.forall_mem_singleton.mp here
      cases taken with
      | timer index pending =>
          refine ⟨chunks, ?_, ?_, respects⟩
          · simpa [results] using isResults
          · simpa [inbound, bytesOf] using bytes
      | result result =>
          cases result with
          | socketError => exact absurd answer id
          | bytes chunk =>
              refine ⟨chunks ++ [chunk], ?_, ?_, (Reader.respects_append _ _ _ _).mpr ⟨respects, .inr ?_, trivial⟩⟩
              · rw [results, List.filterMap_append, ← results, isResults, List.map_append]
                rfl
              · rw [List.flatten_append, bytes, inbound, inbound, List.flatMap_append]
                simp [bytesOf]
              · rw [← receive_loop_deliver, ← isResults, ← timed_loop_screened target env trace state run, request_forget]
                exact answer

theorem call_decrypted (decrypts : DecryptsWith ssl env) (call : DecryptCall)
    (inside : eceWebpushAesgcmDecryptInto ssl call (List.replicate call.plaintextLen 0) ≠ .error .overrun) :
    decryptedMessages env (some call) = plaintextsOf ssl call := by
  have reports := decrypts call
  rw [decryptedMessages, plaintextsOf]
  cases result : eceWebpushAesgcmDecryptInto ssl call (List.replicate call.plaintextLen 0) with
  | ok stored =>
      rw [result] at reports
      rw [reports _ rfl, if_pos rfl]
  | error fault =>
      rw [result] at reports inside
      cases fault with
      | code error => rw [reports _ rfl, if_neg (error_code_nonzero error)]
      | overrun => exact absurd rfl inside

theorem entry_decrypted (streaming : ssl.Streaming) (decrypts : DecryptsWith ssl env) (entry : Dispatch)
    (fits : entry.messageTag = dataMessageStanzaTag → FitsBuffer env entry.bytes) :
    shownByEntry env entry = decryptedFrom ssl env entry := by
  rw [shownByEntry, decryptedFrom]
  split
  · rename_i tag
    have inside := fits_inside env entry.bytes (fits tag)
    rw [shownBy]
    cases parsed : env.parseDataMessageStanza entry.bytes with
    | none => rfl
    | some stanza =>
        dsimp only
        cases passed : passedToDecrypt env stanza with
        | none => rfl
        | some call => exact call_decrypted decrypts call (inside stanza parsed call passed _ _ ssl streaming)
  · rfl

-- Whatever the bytes and the timers do, what is shown is what the library decrypts the stanzas
-- entered so far to, in order and each once, as long as none of them makes it leave its buffer.
theorem shown_in_order (target : Target) (ssl : OpenSsl Scalar Point) (streaming : ssl.Streaming) (env : Environment)
    (decrypts : DecryptsWith ssl env) (trace : List (LoopState App × LoopEvent)) (state : LoopState App)
    (run : Transition.Run (timedLoop target env) trace state)
    (fits : ∀ entry ∈ state.client.dispatched, entry.messageTag = dataMessageStanzaTag → FitsBuffer env entry.bytes) :
    state.client.app.messages = state.client.dispatched.flatMap (decryptedFrom ssl env) ∧
      state.client.dispatched =
        (receiveLoop target (screenHandlers env) (Client.fresh []) (results trace)).client.dispatched := by
  obtain ⟨shown, entries⟩ := entries_screened target env trace state run
  refine ⟨?_, entries⟩
  rw [shown]
  exact List.flatMap_congr fun entry member => entry_decrypted streaming decrypts entry (fits entry member)

theorem client_reports (streaming : ssl.Streaming) (call : DecryptCall) (rs : call.rs = rsLength)
    (stays : aesgcmPadding.StaysInside 4112 call.ciphertext.length) :
    reported call.plaintextLen (written (eceWebpushAesgcmDecryptInto ssl call (List.replicate call.plaintextLen 0))) =
      some (eceWebpushAesgcmDecrypt ssl call) := by
  have nonzero : ¬ (4112 : Nat) = 0 := by decide
  rw [eceWebpushAesgcmDecryptInto, eceWebpushAesgcmDecrypt, rs, client_rs, if_neg nonzero, if_neg nonzero,
    aesgcm_webpush_refines ssl streaming call _ stays _ List.length_replicate]
  cases eceWebpushDecrypt ssl 4112 eceAesgcmPadSize call <;> rfl

-- A body that was made for the client shows its plaintext.
theorem sent_shown (lawful : ssl.Lawful) (streaming : ssl.Streaming) (decrypts : DecryptsWith ssl env) (recv : Scalar)
    (recvPoint : Point) (recvPair : KeyPair ssl env.rawSubPrivKey rawRecvPubKey recv recvPoint)
    (sent : Sent ssl env rawRecvPubKey) (shown : List Bytes) :
    showStanza env sent.body shown = .returns (shown ++ [sent.plaintext]) := by
  obtain ⟨key, nonce, parts, derived⟩ := encrypt_with_keys sent.target ssl lawful recv sent.sender recvPoint sent.senderPoint
    _ _ _ _ recvPair sent.senderPair env.authSecret sent.salt sent.plaintext sent.stanza.rawData sent.padLen sent.ciphertextLen
    sent.encrypted
  obtain ⟨room, opened⟩ := sent_decrypted ssl lawful recv sent.sender recvPoint sent.senderPoint _ _ _ _ recvPair
    sent.senderPair env.authSecret sent.salt sent.plaintext sent.stanza.rawData key nonce parts derived
  have scanned := headers_scanned sent.stanza.appData sent.salt sent.rawSenderPubKey parts.saltLength sent.senderPair.pubLength
    sent.carried
  have passed := passed_of_scan env sent.stanza sent.salt sent.rawSenderPubKey scanned parts.saltLength
    sent.senderPair.pubLength room
  rw [List.take_of_length_le (Nat.le_of_eq recvPair.privLength), List.take_of_length_le (Nat.le_of_eq parts.authLength)] at passed
  have records := (Records.sealed_mod 0 sent.stanza.rawData sent.plaintext parts.isSealed).1
  rw [client_rs] at records
  have stays : aesgcmPadding.StaysInside 4112 sent.stanza.rawData.length := by
    have least : recordOverhead = 18 ∧ eceTagLength = 16 := ⟨rfl, rfl⟩
    exact .inr (.inr (.inr (.inr (.inr (by omega)))))
  have decrypted := decrypts _ _ (client_reports streaming
    { rawRecvPrivKey := env.rawSubPrivKey, authSecret := env.authSecret, salt := sent.salt
      rawSenderPubKey := sent.rawSenderPubKey
      rs := rsLength
      ciphertext := sent.stanza.rawData
      plaintextLen := eceAesgcmPlaintextMaxLength rsLength sent.stanza.rawData.length }
    rfl stays)
  rw [opened] at decrypted
  have shows : shownBy env sent.body = [sent.plaintext] := by
    rw [shownBy, sent.parsed]
    dsimp only
    rw [passed, decryptedMessages, decrypted, if_pos rfl]
  rw [showStanza, sent.parsed]
  dsimp only
  rw [scanned, shows]

-- Every text stands for what some app has shown.
def App.showing (shown : List Bytes) : App := { App.loaded [] with emitted := shown.map (⟨"message", ·⟩) }

theorem showing_messages (shown : List Bytes) : (App.showing shown).messages = shown := by
  simp [App.showing, App.messages, List.filter_map, Function.comp_def]

theorem inbound_handled (lawful : ssl.Lawful) (streaming : ssl.Streaming) (decrypts : DecryptsWith ssl env) (recv : Scalar)
    (recvPoint : Point) (recvPair : KeyPair ssl env.rawSubPrivKey rawRecvPubKey recv recvPoint)
    (frame : Inbound ssl env rawRecvPubKey) (shown : List Bytes) :
    (screenHandlers env).handle frame.message.tag frame.message.body shown = .returns (shown ++ frame.plaintexts) := by
  cases frame with
  | sent sent => exact sent_shown lawful streaming decrypts recv recvPoint recvPair sent shown
  | quiet frame =>
      obtain ⟨next, handled, same⟩ := frame.quiet (App.showing shown)
      have screened := screen_forgets env frame.tag frame.body (App.showing shown)
      rw [handled, Outcome.map, same, showing_messages] at screened
      exact screened.trans (congrArg Outcome.returns (List.append_nil shown).symm)

theorem frames_handled (lawful : ssl.Lawful) (streaming : ssl.Streaming) (decrypts : DecryptsWith ssl env) (recv : Scalar)
    (recvPoint : Point) (recvPair : KeyPair ssl env.rawSubPrivKey rawRecvPubKey recv recvPoint)
    (frames : List (Inbound ssl env rawRecvPubKey)) (shown : List Bytes) :
    (screenHandlers env).handleFrames ((frames.map Inbound.message).map frameOf) shown =
      .returns (shown ++ frames.flatMap Inbound.plaintexts) := by
  induction frames generalizing shown with
  | nil => exact congrArg Outcome.returns (List.append_nil shown).symm
  | cons frame rest ih =>
      have handled := inbound_handled lawful streaming decrypts recv recvPoint recvPair frame shown
      rw [List.map_cons, List.map_cons, frameOf, Handlers.handleFrames, handled]
      dsimp only
      rw [ih, List.flatMap_cons, List.append_assoc]

theorem empty_body_bounded : ([] : Bytes).length < 2147483648 := Nat.two_pow_pos 31

-- A frame of this kind can always follow.
def closing (env : Environment) : Quiet env where
  tag := MCSProtoTag.kCloseTag.value
  body := []
  bounded := empty_body_bounded
  quiet app := ⟨app, rfl, rfl⟩

theorem stream_ends (target : Target) (version : UInt8) (accepted : Accepted version) (messages : List Message)
    (nonempty : messages ≠ []) (final : List Bytes)
    (handled : (screenHandlers env).handleFrames (messages.map frameOf) [] = .returns final) :
    (fed target (screenHandlers env) (loopHead target (Client.fresh [])) (version :: messages.flatMap Message.wire)).client.app =
      final := by
  let stream := version :: messages.flatMap Message.wire
  have respects := Reader.singles_respects (receiver target (screenHandlers env)) (loopHead target (Client.fresh [])) stream
  have whole := Reader.singles_flatten stream
  obtain ⟨client, received, _, _, _, app⟩ := messages_received target (screenHandlers env) [] final version accepted messages
    nonempty handled (Reader.singles stream) respects whole
  rw [receive_loop_fed target (screenHandlers env) (Client.fresh []) _ respects, whole] at received
  rw [received]
  exact app

-- What is shown at one point of a stream is shown later on, with what has come since behind it.
theorem shown_grows (target : Target) (bytes more : Bytes) :
    (fed target (screenHandlers env) (loopHead target (Client.fresh [])) bytes).client.app <+:
      (fed target (screenHandlers env) (loopHead target (Client.fresh [])) (bytes ++ more)).client.app := by
  have screened : ∀ stream : Bytes, (fed target (screenHandlers env) (loopHead target (Client.fresh [])) stream).client.app =
      (fed target (screenHandlers env) (loopHead target (Client.fresh [])) stream).client.dispatched.flatMap
        (shownByEntry env) := by
    intro stream
    have shown := screen_shown target env ((Reader.singles stream).map .bytes)
    rwa [receive_loop_deliver] at shown
  obtain ⟨later, entries⟩ := fed_grows target (screenHandlers env)
    (fed target (screenHandlers env) (loopHead target (Client.fresh [])) bytes) more
  rw [screened, screened, fed_append, ← entries, List.flatMap_append]
  exact List.prefix_append _ _

-- Up to any point of a stream the client has shown the first of its plaintexts, in order and each
-- once, however the stream is cut up and the timers fire; at its end it has shown them all.
theorem stream_shown (target : Target) (lawful : ssl.Lawful) (streaming : ssl.Streaming) (decrypts : DecryptsWith ssl env)
    (recv : Scalar) (recvPoint : Point) (recvPair : KeyPair ssl env.rawSubPrivKey rawRecvPubKey recv recvPoint)
    (version : UInt8) (accepted : Accepted version) (frames : List (Inbound ssl env rawRecvPubKey))
    (trace : List (LoopState App × LoopEvent)) (state : LoopState App) (run : Transition.Run (timedLoop target env) trace state)
    (answered : ∀ taken ∈ trace, Answered target env taken.1 taken.2)
    (within : inbound trace <+: version :: frames.flatMap (·.message.wire)) :
    state.client.app.messages <+: frames.flatMap Inbound.plaintexts ∧
      (inbound trace = version :: frames.flatMap (·.message.wire) →
        state.client.app.messages = frames.flatMap Inbound.plaintexts) := by
  obtain ⟨chunks, isResults, bytes, respects⟩ := answered_respects target env trace state run answered
  have screened := timed_loop_screened target env trace state run
  rw [isResults] at screened
  have app : state.client.app.messages =
      (receiveLoop target (screenHandlers env) (Client.fresh []) (chunks.map .bytes)).client.app := by
    rw [← screened, forget_client]
    rfl
  rw [receive_loop_fed target (screenHandlers env) (Client.fresh []) chunks respects, bytes] at app
  have ends : ∀ frames : List (Inbound ssl env rawRecvPubKey), frames ≠ [] →
      (fed target (screenHandlers env) (loopHead target (Client.fresh [])) (version :: frames.flatMap (·.message.wire))).client.app =
        frames.flatMap Inbound.plaintexts := by
    intro frames nonempty
    have ended := stream_ends target version accepted (frames.map Inbound.message) (by simpa using nonempty) _
      (frames_handled lawful streaming decrypts recv recvPoint recvPair frames [])
    rwa [List.flatMap_map, List.nil_append] at ended
  have first : state.client.app.messages <+: frames.flatMap Inbound.plaintexts := by
    -- One frame more, and the stream has an end that is known.
    have ended := ends (frames ++ [.quiet (closing env)]) (by simp)
    rw [List.flatMap_append, List.flatMap_singleton, ← List.cons_append, List.flatMap_append, List.flatMap_singleton,
      Inbound.plaintexts, List.append_nil] at ended
    obtain ⟨rest, whole⟩ := within
    have grows := @shown_grows env target (inbound trace) (rest ++ (closing env).wire)
    rw [← app, ← List.append_assoc, whole] at grows
    exact ended ▸ grows
  refine ⟨first, fun whole => ?_⟩
  rw [app, whole]
  cases frames with
  | nil =>
      rw [app, whole] at first
      exact List.prefix_nil.mp first
  | cons frame rest => exact ends (frame :: rest) (List.cons_ne_nil _ _)

-- The client that calls the library with a buffer; what happens behind the buffer is left open.
def listening (ssl : OpenSsl Scalar Point) (env : Environment) : Environment :=
  { env with
    decrypt := fun call =>
      (reported call.plaintextLen (written (eceWebpushAesgcmDecryptInto ssl call (List.replicate call.plaintextLen 0)))).getD
        (eceOk, []) }

theorem listening_decrypts (ssl : OpenSsl Scalar Point) (env : Environment) : DecryptsWith ssl (listening ssl env) := by
  intro call result reports
  simp only [listening, reports, Option.getD_some]

def helloListening : Environment := listening helloSsl helloEnvironment

def helloSent : Sent helloSsl helloListening helloRecvPubKey where
  target := .x64
  sender := false
  senderPoint := false
  rawSenderPrivKey := counting 33 32
  rawSenderPubKey := helloSenderPubKey
  salt := counting 16 16
  plaintext := ascii "hello"
  padLen := 1
  ciphertextLen := 24
  body := ascii "hello stanza"
  stanza := helloStanza
  senderPair := ⟨by decide +kernel, by decide +kernel, rfl, rfl, by decide +kernel⟩
  encrypted := by decide +kernel
  carried := List.Perm.swap _ _ _
  parsed := rfl
  bounded := by decide

def helloOpened : LoopState App := loopHead .x64 (Client.fresh (App.loaded []))

def helloFramed : LoopState App := helloOpened.resume .x64 helloListening.handlers (.bytes [41, 8, 12])

def helloShown : LoopState App := helloFramed.resume .x64 helloListening.handlers (.bytes (ascii "hello stanza"))

theorem hello_run : Transition.Run (timedLoop .x64 helloListening)
    [(helloOpened, .result (.bytes [41, 8, 12])), (helloFramed, .result (.bytes (ascii "hello stanza")))] helloShown := by
  have opened : Transition.Run (timedLoop .x64 helloListening) [] helloOpened := .start _ ⟨[], rfl⟩
  have framed : Transition.Run (timedLoop .x64 helloListening) [(helloOpened, .result (.bytes [41, 8, 12]))] helloFramed :=
    .step [] helloOpened _ helloFramed opened (.result helloOpened _)
  exact .step _ helloFramed _ helloShown framed (.result helloFramed _)

theorem shown_in_order_hello :
    helloShown.client.dispatched = [⟨8, 12, ascii "hello stanza"⟩] ∧ helloShown.client.app.messages = [ascii "hello"] := by
  have entries : helloShown.client.dispatched = [⟨8, 12, ascii "hello stanza"⟩] := by decide +kernel
  refine ⟨entries, (shown_in_order .x64 helloSsl hello_streaming helloListening (listening_decrypts helloSsl helloEnvironment)
    _ _ hello_run ?_).1.trans (by decide +kernel)⟩
  intro entry member _ stanza parsed _
  rw [entries] at member
  obtain rfl := List.mem_singleton.mp member
  obtain rfl : helloStanza = stanza := Option.some.inj parsed
  exact .inl (by decide +kernel)

theorem stream_shown_hello : helloShown.client.app.messages = [ascii "hello"] :=
  (stream_shown .x64 hello_lawful hello_streaming (listening_decrypts helloSsl helloEnvironment) true true
    ⟨by decide +kernel, by decide +kernel, rfl, rfl, by decide +kernel⟩ 41 (.inl (by decide)) [.sent helloSent] _ _ hello_run
    (by
      intro taken member
      rcases List.mem_pair.mp member with rfl | rfl
      · exact (by decide +kernel : [41, 8, 12].length ≤ (receiver .x64 helloListening.handlers).request helloOpened)
      · exact (by decide +kernel :
          (ascii "hello stanza").length ≤ (receiver .x64 helloListening.handlers).request helloFramed))
    ⟨[], by decide +kernel⟩).2 (by decide +kernel)

end PushReceiver
