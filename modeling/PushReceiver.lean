import PushReceiver.Library.Leb128
import PushReceiver.Cpp
import PushReceiver.Varint
import PushReceiver.Client
import PushReceiver.Library.Reader
import PushReceiver.Receiver
import PushReceiver.Segmentation
import PushReceiver.Framing
import PushReceiver.Library.Transition
import PushReceiver.Lookahead
import PushReceiver.Progress
import PushReceiver.TcpSslClient
import PushReceiver.Base64
import PushReceiver.Base64Url
import PushReceiver.Decimal
import PushReceiver.Decrypt
import PushReceiver.Delivery
import PushReceiver.FcmClient
import PushReceiver.RegisterFile
import PushReceiver.Session
import PushReceiver.ArgumentOption
import PushReceiver.ArgumentParser
import PushReceiver.Heartbeat
import PushReceiver.HelpText
import PushReceiver.KeepAlive
import PushReceiver.Listen
import PushReceiver.OptionRegistry
import PushReceiver.ParseOrder
import PushReceiver.ParseSegments
import PushReceiver.Reconnect
import PushReceiver.Recorded
import PushReceiver.TimedLoop
import PushReceiver.PersistentIdFile
import PushReceiver.VarintDecode
import PushReceiver.VarintContext
import PushReceiver.BodyPhase
import PushReceiver.SizePhase
import PushReceiver.GcmToken
import PushReceiver.ParseReading
import PushReceiver.AssignedValue
import PushReceiver.StrayValue
import PushReceiver.Emitter
import PushReceiver.Reentrancy
import PushReceiver.RemoveCallback
import PushReceiver.Library.JsonScan
import PushReceiver.Library.JsonText
import PushReceiver.RequestBody
import PushReceiver.Library.Store
import PushReceiver.Library.MarkedRecords
import PushReceiver.Scheme
import PushReceiver.DecryptBounds
import PushReceiver.EncryptRun
import PushReceiver.DecryptRun
import PushReceiver.SchemeDelivery
import PushReceiver.PaddingAccepted
import PushReceiver.Aes128gcm
import PushReceiver.Aes128gcmPayload
import PushReceiver.Aes128gcmMessage
import PushReceiver.Aes128gcmDelivery
import PushReceiver.Aesgcm
import PushReceiver.AesgcmRefinement
import PushReceiver.ClientBounds
import PushReceiver.Poison
import PushReceiver.Base64UrlBounds
import PushReceiver.HeaderGrammar
import PushReceiver.HeaderBounds
import PushReceiver.HeaderRoundTrip
import PushReceiver.Library.Receipts
import PushReceiver.Restart
import PushReceiver.Library.Handles
import PushReceiver.SslClient
import PushReceiver.Wmain
import PushReceiver.Library.Delimited
import PushReceiver.StringLoops
import PushReceiver.Fid
import PushReceiver.LibCurlWrapper
import PushReceiver.Screen
import PushReceiver.StreamDelivery
import PushReceiver.Accepted
