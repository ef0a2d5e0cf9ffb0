import PushReceiver.Varint

set_option autoImplicit false

namespace PushReceiver

inductive ProcessingState where
  | mcsVersionTagAndSize
  | mcsTagAndSize
  | mcsSize
  | mcsProtoBytes
deriving DecidableEq, Repr

inductive MCSProtoTag where
  | kHeartbeatPingTag
  | kHeartbeatAckTag
  | kLoginRequestTag
  | kLoginResponseTag
  | kCloseTag
  | kMessageStanzaTag
  | kPresenceStanzaTag
  | kIqStanzaTag
  | kDataMessageStanzaTag
  | kBatchPresenceStanzaTag
  | kStreamErrorStanzaTag
  | kHttpRequestTag
  | kHttpResponseTag
  | kBindAccountRequestTag
  | kBindAccountResponseTag
  | kTalkMetadataTag
deriving DecidableEq, Repr

def MCSProtoTag.value (tag : MCSProtoTag) : UInt8 := UInt8.ofNat tag.ctorIdx

def kVersionPacketLen : Int := 1
def kTagPacketLen : Int := 1
def kSizePacketLenMin : Int := 1
def kSizePacketLenMax : Int := 5
def kMCSVersion : Nat := 41

-- One entry of GotMessageBytes: the tag, the declared size and the buffer it is entered with.
structure Dispatch where
  messageTag : UInt8
  messageSize : UInt32
  bytes : Bytes
deriving DecidableEq, Repr

-- CFCMClient. `app` is the part of the object only the message handlers read and write;
-- `dispatched` is ghost state, the entries of GotMessageBytes so far, oldest first.
-- m_nMessageTag is an int that is only ever assigned 0 or a byte of the stream.
structure Client (σ : Type) where
  state : ProcessingState
  sizePacketSoFar : Int
  messageTag : UInt8
  messageSize : UInt32
  minBytesNeeded : Int
  bytesReadFromServer : Bytes
  app : σ
  dispatched : List Dispatch
deriving DecidableEq, Repr

structure Handlers (σ : Type) where
  handleLoginResponseTag : Bytes → σ → Outcome σ
  handleIqStanzaTag : Bytes → σ → Outcome σ
  handleDataMessageStanzaTag : Bytes → σ → Outcome σ
  handleHeartbeatAck : Bytes → σ → Outcome σ

variable {σ : Type}

-- The part of the constructor's initialiser list the receiver reads.
def Client.fresh (app : σ) : Client σ :=
  { state := .mcsVersionTagAndSize, sizePacketSoFar := 0, messageTag := 0, messageSize := 0, minBytesNeeded := 1,
    bytesReadFromServer := [], app, dispatched := [] }

def calculateMinBytesNeeded (client : Client σ) : Int :=
  match client.state with
  | .mcsVersionTagAndSize => kVersionPacketLen + kTagPacketLen + kSizePacketLenMin
  | .mcsTagAndSize => kTagPacketLen + kSizePacketLenMin
  | .mcsSize => client.sizePacketSoFar + 1
  | .mcsProtoBytes => toInt client.messageSize.toNat

def getNextMessage (client : Client σ) : Client σ :=
  { client with messageTag := 0, messageSize := 0, state := .mcsTagAndSize }

-- The switch of GotMessageBytes; a tag without a case is dropped.
def Handlers.handle (handlers : Handlers σ) (messageTag : UInt8) (bytes : Bytes) (app : σ) : Outcome σ :=
  if messageTag = MCSProtoTag.kLoginResponseTag.value then handlers.handleLoginResponseTag bytes app
  else if messageTag = MCSProtoTag.kIqStanzaTag.value then handlers.handleIqStanzaTag bytes app
  else if messageTag = MCSProtoTag.kDataMessageStanzaTag.value then handlers.handleDataMessageStanzaTag bytes app
  else if messageTag = MCSProtoTag.kHeartbeatAckTag.value then handlers.handleHeartbeatAck bytes app
  else .returns app

def Client.enter (client : Client σ) : Client σ :=
  { client with
    dispatched := client.dispatched ++ [⟨client.messageTag, client.messageSize, client.bytesReadFromServer⟩] }

def gotMessageBytes (handlers : Handlers σ) (client : Client σ) : Outcome (Client σ) :=
  match handlers.handle client.messageTag client.bytesReadFromServer client.app with
  | .returns app => .returns (getNextMessage { client.enter with app, bytesReadFromServer := [] })
  | .throws exception app => .throws exception { client.enter with app }

def gotMessageSize (target : Target) (handlers : Handlers σ) (client : Client σ) : Outcome (Client σ) :=
  match decodeVarint32 target client.bytesReadFromServer 0 with
  | none => .returns { client with sizePacketSoFar := toInt (1 + client.bytesReadFromServer.length) }
  | some (messageSize, varintLen) =>
      let client := { client with
        messageSize, bytesReadFromServer := client.bytesReadFromServer.drop varintLen, sizePacketSoFar := 0,
        state := .mcsProtoBytes }
      if 0 < messageSize then .returns client else gotMessageBytes handlers client

def gotMessageTag (target : Target) (handlers : Handlers σ) (client : Client σ) : Outcome (Client σ) :=
  match client.bytesReadFromServer with
  | [] => .returns client
  | messageTag :: rest =>
      gotMessageSize target handlers { client with messageTag, bytesReadFromServer := rest, state := .mcsSize }

def gotVersion (target : Target) (handlers : Handlers σ) (client : Client σ) : Outcome (Client σ) :=
  let client := { client with state := .mcsVersionTagAndSize }
  match client.bytesReadFromServer with
  | [] => .returns client
  | version :: rest =>
      let client := { client with bytesReadFromServer := rest }
      if version.toNat < kMCSVersion ∧ version.toNat ≠ 38 then
        .throws (.runtimeError s!"Got version {version.toNat} but expected {kMCSVersion}") client
      else gotMessageTag target handlers { client with state := .mcsTagAndSize }

-- The default branch of the switch is unreachable: m_nState only ever holds one of the four states.
def processData (target : Target) (handlers : Handlers σ) (client : Client σ) : Outcome (Client σ) :=
  match client.state with
  | .mcsVersionTagAndSize => gotVersion target handlers client
  | .mcsTagAndSize => gotMessageTag target handlers client
  | .mcsSize => gotMessageSize target handlers client
  | .mcsProtoBytes => gotMessageBytes handlers client

end PushReceiver
