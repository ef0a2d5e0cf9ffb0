import PushReceiver.Base64
import PushReceiver.Client
import PushReceiver.Ece
import PushReceiver.StringUtil

set_option autoImplicit false

namespace PushReceiver

-- The fields of the protobuf messages that the handlers read.
structure LoginResponse where
  lastStreamIdReceived : Int
deriving DecidableEq, Repr

structure AppData where
  key : Bytes
  value : Bytes
deriving DecidableEq, Repr

structure DataMessageStanza where
  appData : List AppData
  persistentId : Bytes
  rawData : Bytes
deriving DecidableEq, Repr

structure HeartbeatAck where
  lastStreamIdReceived : Int
deriving DecidableEq, Repr

-- The arguments of ece_webpush_aesgcm_decrypt, a pointer and its length read as one byte string;
-- `plaintextLen` is the size of the output buffer.
structure DecryptCall where
  rawRecvPrivKey : Bytes
  authSecret : Bytes
  salt : Bytes
  rawSenderPubKey : Bytes
  rs : Nat
  ciphertext : Bytes
  plaintextLen : Nat
deriving DecidableEq, Repr

-- What the handlers use and never change. ParseFromArray is none where it returns false; `decrypt`
-- gives the error code and the bytes of the output buffer up to the length it stores, for a call
-- that writes nothing behind that buffer.
structure Environment where
  parseLoginResponse : Bytes → Option LoginResponse
  parseDataMessageStanza : Bytes → Option DataMessageStanza
  parseHeartbeatAck : Bytes → Option HeartbeatAck
  rawSubPrivKey : Bytes
  authSecret : Bytes
  decrypt : DecryptCall → Int × Bytes

structure Event where
  name : String
  message : Bytes
deriving DecidableEq, Repr

-- What the handlers do change: m_PersistentIds, the events passed to Emit, the heartbeats sent
-- and the timers started for later ones, each with its last_stream_id_received.
structure App where
  persistentIds : List Bytes
  emitted : List Event
  sentHeartbeats : List Int
  heartbeatTimers : List Int
deriving DecidableEq, Repr

def App.loaded (persistentIds : List Bytes) : App :=
  { persistentIds, emitted := [], sentHeartbeats := [], heartbeatTimers := [] }

def App.emit (app : App) (name : String) (message : Bytes) : App :=
  { app with emitted := app.emitted ++ [⟨name, message⟩] }

def App.sendHeartbeat (app : App) (lastStreamIdReceived : Int) : App :=
  { app with sentHeartbeats := app.sentHeartbeats ++ [lastStreamIdReceived] }

def equalSign : UInt8 := 61

-- base64_decode(StringUtil::split(app.value(), "=").at(1), true)
def decodeSecondField (value : Bytes) : Except Exception Bytes :=
  match (split value equalSign)[1]? with
  | none => .error .outOfRange
  | some field => base64Decode field

inductive Scan where
  | accepts (salt rawSenderPubKey : Bytes)
  | rejects
  | throws (exception : Exception)
deriving DecidableEq, Repr

-- The loop over app_data. A repeated entry is put in front of the earlier one.
def scanAppData : List AppData → Bytes → Bytes → Scan
  | [], salt, rawSenderPubKey => .accepts salt rawSenderPubKey
  | app :: rest, salt, rawSenderPubKey =>
      if app.key = ascii "encryption" then
        match decodeSecondField app.value with
        | .error exception => .throws exception
        | .ok decoded =>
            if decoded.length ≠ eceSaltLength then .rejects else scanAppData rest (decoded ++ salt) rawSenderPubKey
      else if app.key = ascii "crypto-key" then
        match decodeSecondField app.value with
        | .error exception => .throws exception
        | .ok decoded =>
            if decoded.length ≠ eceWebpushPublicKeyLength then .rejects
            else scanAppData rest salt (decoded ++ rawSenderPubKey)
      else scanAppData rest salt rawSenderPubKey

def App.recordPersistentId (app : App) (persistentId : Bytes) : App :=
  if persistentId = [] then app
  else
    { app with persistentIds := app.persistentIds ++ [persistentId] }.emit "persistent_id"
      (join (app.persistentIds ++ [persistentId]) (ascii ";"))

def decryptCall (env : Environment) (salt rawSenderPubKey rawData : Bytes) : Option DecryptCall :=
  if salt = [] ∨ rawSenderPubKey = [] ∨ rawData = [] then none
  else if eceAesgcmPlaintextMaxLength rsLength rawData.length = 0 then none
  else some
    { rawRecvPrivKey := env.rawSubPrivKey.take eceWebpushPrivateKeyLength
      authSecret := env.authSecret.take eceWebpushAuthSecretLength
      salt := salt.take eceSaltLength
      rawSenderPubKey := rawSenderPubKey.take eceWebpushPublicKeyLength
      rs := rsLength
      ciphertext := rawData
      plaintextLen := eceAesgcmPlaintextMaxLength rsLength rawData.length }

def deliverMessage (env : Environment) (call : Option DecryptCall) (app : App) : App :=
  match call with
  | none => app
  | some call => if (env.decrypt call).1 = eceOk then app.emit "message" (env.decrypt call).2 else app

-- The arguments ece_webpush_aesgcm_decrypt is called with, when it is called.
def passedToDecrypt (env : Environment) (stanza : DataMessageStanza) : Option DecryptCall :=
  match scanAppData stanza.appData [] [] with
  | .accepts salt rawSenderPubKey => decryptCall env salt rawSenderPubKey stanza.rawData
  | _ => none

def handleDataMessageStanzaTag (env : Environment) (bytes : Bytes) (app : App) : Outcome App :=
  match env.parseDataMessageStanza bytes with
  | none => .returns app
  | some stanza =>
      match scanAppData stanza.appData [] [] with
      | .throws exception => .throws exception app
      | .rejects => .returns app
      | .accepts salt rawSenderPubKey =>
          .returns (deliverMessage env (decryptCall env salt rawSenderPubKey stanza.rawData)
            (app.recordPersistentId stanza.persistentId))

theorem handle_passes (env : Environment) (bytes : Bytes) (app : App) (stanza : DataMessageStanza) (salt rawSenderPubKey : Bytes)
    (parsed : env.parseDataMessageStanza bytes = some stanza)
    (scanned : scanAppData stanza.appData [] [] = .accepts salt rawSenderPubKey) :
    handleDataMessageStanzaTag env bytes app =
      .returns (deliverMessage env (passedToDecrypt env stanza) (app.recordPersistentId stanza.persistentId)) := by
  simp only [handleDataMessageStanzaTag, passedToDecrypt, parsed, scanned]

-- The error field of a LoginResponse is not looked at.
def handleLoginResponseTag (env : Environment) (bytes : Bytes) (app : App) : Outcome App :=
  match env.parseLoginResponse bytes with
  | none => .throws (.runtimeError "Cannot parse LoginResponse") app
  | some response => .returns ({ app with persistentIds := [] }.sendHeartbeat response.lastStreamIdReceived)

def handleIqStanzaTag (_bytes : Bytes) (app : App) : Outcome App := .returns app

def handleHeartbeatAck (env : Environment) (bytes : Bytes) (app : App) : Outcome App :=
  match env.parseHeartbeatAck bytes with
  | none => .returns app
  | some ack => .returns { app with heartbeatTimers := app.heartbeatTimers ++ [ack.lastStreamIdReceived] }

def Environment.handlers (env : Environment) : Handlers App where
  handleLoginResponseTag := handleLoginResponseTag env
  handleIqStanzaTag := handleIqStanzaTag
  handleDataMessageStanzaTag := handleDataMessageStanzaTag env
  handleHeartbeatAck := handleHeartbeatAck env

abbrev loginResponseTag : UInt8 := MCSProtoTag.kLoginResponseTag.value

abbrev dataMessageStanzaTag : UInt8 := MCSProtoTag.kDataMessageStanzaTag.value

theorem handle_login (env : Environment) (frame : UInt8 × Bytes) (app : App) (tag : frame.1 = loginResponseTag) :
    env.handlers.handle frame.1 frame.2 app = handleLoginResponseTag env frame.2 app := by
  rw [tag]
  rfl

theorem handle_stanza (env : Environment) (frame : UInt8 × Bytes) (app : App) (tag : frame.1 = dataMessageStanzaTag) :
    env.handlers.handle frame.1 frame.2 app = handleDataMessageStanzaTag env frame.2 app := by
  rw [tag]
  rfl

end PushReceiver
