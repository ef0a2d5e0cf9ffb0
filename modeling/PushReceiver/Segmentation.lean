import PushReceiver.Receiver

set_option autoImplicit false

namespace PushReceiver

variable {σ : Type}

theorem receive_loop_deliver (target : Target) (handlers : Handlers σ) (client : Client σ) (chunks : List Bytes) :
    receiveLoop target handlers client (chunks.map .bytes) =
      Reader.deliver (receiver target handlers) (loopHead target client) chunks := by
  rw [receiveLoop, List.foldl_map]
  rfl

theorem segmentation_independence (target : Target) (handlers : Handlers σ) (client : Client σ) (stream : Bytes)
    (left right : List Bytes)
    (leftRespects : Reader.Respects (receiver target handlers) (loopHead target client) left)
    (rightRespects : Reader.Respects (receiver target handlers) (loopHead target client) right)
    (leftPrefix : Reader.delivered (receiver target handlers) (loopHead target client) left <+: stream)
    (rightPrefix : Reader.delivered (receiver target handlers) (loopHead target client) right <+: stream)
    (total : (Reader.delivered (receiver target handlers) (loopHead target client) left).length =
      (Reader.delivered (receiver target handlers) (loopHead target client) right).length) :
    receiveLoop target handlers client (left.map .bytes) = receiveLoop target handlers client (right.map .bytes) := by
  rw [receive_loop_deliver, receive_loop_deliver]
  exact Reader.segmentation_independent (receiver target handlers) (Waiting target)
    (receiver_incremental target handlers) (loopHead target client) left right stream
    (head_waiting target client) leftRespects rightRespects leftPrefix rightPrefix total

def silentHandlers : Handlers Unit where
  handleLoginResponseTag _ app := .returns app
  handleIqStanzaTag _ app := .returns app
  handleDataMessageStanzaTag _ app := .returns app
  handleHeartbeatAck _ app := .returns app

theorem segmentation_independence_split_prefix :
    receiveLoop .win32 silentHandlers (.fresh ()) ([[41], [7], [], [0x81], [0x02], [9]].map .bytes) =
      receiveLoop .win32 silentHandlers (.fresh ()) ([[41, 7, 0x81], [0x02, 9]].map .bytes) :=
  segmentation_independence .win32 silentHandlers (.fresh ()) [41, 7, 0x81, 0x02, 9] [[41], [7], [], [0x81], [0x02], [9]]
    [[41, 7, 0x81], [0x02, 9]] (by decide) (by decide) (by decide) (by decide) (by decide)

end PushReceiver
