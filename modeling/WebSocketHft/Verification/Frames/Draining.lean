import WebSocketHft.Shared.Repeats
import WebSocketHft.Verification.Frames.Alignment

/-! # Draining the receive ring

The loop of the CONNECTED branch repeats `process_frames` until the read pointer is
where it was. Whatever the ring holds, a pass consumes no more than was readable, and
that is less than the size of the ring: a pass that consumes anything is seen to move
the pointer, and leaves less to read. -/

namespace WebSocketHft

open WebSocketHft.Repeats

variable (env : Env)

/-! ## One pass -/

/-- `total_consumed` at the end of a call of `process_frames`. -/
def totalConsumed (ws : WebSocket) : ℕ :=
  (processFramesLoop env ws.rxRing.readPtr (ringbufferReadable ws.rxRing) maxParseAttempts 0 0
    (passStart ws)).1

end WebSocketHft
