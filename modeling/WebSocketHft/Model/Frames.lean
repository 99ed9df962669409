import WebSocketHft.Model.Observability

/-! # Sending and receiving frames

The two producers of outgoing frames, `websocket_close`, the callbacks, and the
loop that takes frames out of the receive ring. -/

namespace WebSocketHft

open WebSocketHft.Memory WebSocketHft.BigEndian

/-! ## Transport -/

/-- `ringbuffer_write` on the transmit ring. -/
def WebSocket.queueTx (ws : WebSocket) (bytes : List UInt8) : ℕ × WebSocket :=
  let r := ringbufferWrite ws.txRing (some bytes)
  (r.ret, { ws with txRing := r.ring }.record (.queued (bytes.take r.ret)))

/-- `ssl_write` on the transmit ring. -/
def WebSocket.writeSsl (env : Env) (ws : WebSocket) : ℤ × WebSocket :=
  let r := sslWrite ws.sslCtx ws.txRing (env ws.tick).tls
  (r.ret, ({ ws with txRing := r.ring }.record (.sent r.sent)).pass)

/-- `io_write` on the transmit ring. -/
def WebSocket.writeIo (env : Env) (ws : WebSocket) : ℤ × WebSocket :=
  let r := ioWrite ws.ioCtx ws.socketIndex ws.txRing (env ws.tick).writev
  (r.ret, ({ ws with txRing := r.ring }.record (.sent r.sent)).pass)

/-- "Send via SSL or direct I/O". -/
def WebSocket.flush (env : Env) (ws : WebSocket) : WebSocket :=
  if ws.useSsl then (ws.writeSsl env).2 else (ws.writeIo env).2

/-- `ssl_read` on the receive ring. -/
def WebSocket.readSsl (env : Env) (ws : WebSocket) : ℤ × WebSocket :=
  let answer := (env ws.tick).tls
  let r := sslRead ws.sslCtx ws.rxRing answer
  (r.ret,
    ({ ws with sslCtx := r.ctx, rxRing := r.ring }.record
      (.received (answer.bytes.take r.ret.toNat))).pass)

/-- `io_read` on the receive ring. -/
def WebSocket.readIo (ws : WebSocket) (socketIndex : ℤ) (recv : RecvResult) : ℤ × WebSocket :=
  let r := ioRead ws.ioCtx socketIndex ws.rxRing recv
  let bytes := match recv with
    | .received bytes _ => bytes.take r.ret.toNat
    | .failed => []
  (r.ret, { ws with ioCtx := r.ctx, rxRing := r.ring }.record (.received bytes))

/-! ## Outgoing frames -/

/-- The header `websocket_send` builds; its mask bit stays clear. -/
def sendHeader (isText : Bool) (len : ℕ) : List UInt8 :=
  let byte0 := 0x80 ||| (if isText then wsOpcodeText else wsOpcodeBinary)
  if len < 126 then [byte0, UInt8.ofNat len]
  else if len < 65536 then byte0 :: 126 :: toBytes 2 len
  else byte0 :: 127 :: toBytes 8 len

/-- The header `websocket_send_pong` builds, masking key included. -/
def pongHeader (key : MaskingKey) (len : ℕ) : List UInt8 :=
  let byte0 := 0x80 ||| wsOpcodePong
  if len < 126 then [byte0, 0x80 ||| UInt8.ofNat len] ++ key.bytes
  else if len < 65536 then byte0 :: (0x80 ||| 126) :: (toBytes 2 len ++ key.bytes)
  else byte0 :: (0x80 ||| 127) :: (toBytes 8 len ++ key.bytes)

/-- The metrics update of `websocket_send`. -/
def WebSocket.countSent (ws : WebSocket) (len : ℕ) : WebSocket :=
  { ws with
    metrics := { ws.metrics with
      messagesSent := ws.metrics.messagesSent + 1
      bytesSent := ws.metrics.bytesSent + UInt64.ofNat len } }

/-- `websocket_send`; `none` is a `NULL` buffer. -/
def websocketSend (env : Env) (ws : WebSocket) (data : Option (List UInt8)) (isText : Bool) :
    ℤ × WebSocket :=
  match data with
  | none => (-1, ws)
  | some data =>
    if data.length = 0 ∨ ws.state ≠ .connected then (-1, ws)
    else
      let header := sendHeader isText data.length
      let ws := ws.record (.transmit header data data (ringbufferWriteable ws.txRing) true)
      let r := ws.queueTx header
      if r.1 ≠ header.length then (-1, r.2)
      else
        let r := r.2.queueTx data
        if r.1 ≠ data.length then (-1, r.2)
        else (0, (r.2.countSent data.length).flush env)

/-- `websocket_send_pong`. -/
def websocketSendPong (env : Env) (ws : WebSocket) (payload : List UInt8) : ℤ × WebSocket :=
  if ws.state ≠ .connected then (-1, ws)
  else
    let key := (env ws.tick).maskingKey
    let allocated := (env ws.tick).allocated
    let header := pongHeader key payload.length
    let masked := xorKey key payload
    let ws := (ws.record
      (.transmit header masked payload (ringbufferWriteable ws.txRing) allocated)).pass
    let r := ws.queueTx header
    if r.1 ≠ header.length then (-1, r.2)
    else if 0 < payload.length then
      if allocated = false then (-1, r.2)
      else
        let r := r.2.queueTx masked
        if r.1 ≠ payload.length then (-1, r.2) else (0, r.2.flush env)
    else (0, r.2.flush env)

/-- An assignment to `ws->state`. -/
def WebSocket.setState (ws : WebSocket) (state : WSState) : WebSocket :=
  { ws with state := state }.record (.state ws.state state)

/-- The descriptor is unregistered, shut down and closed. -/
def WebSocket.closeSocket (ws : WebSocket) : WebSocket :=
  let ioCtx :=
    if 0 ≤ ws.socketIndex then ws.ioCtx.map fun ctx => (ioRemoveSocket ctx ws.fd).2
    else ws.ioCtx
  let ws' := ws.record (.closing ws.fd ws.sslFd)
  { ws' with ioCtx := ioCtx, fd := -1 }.record (.closed ws.fd)

/-- `websocket_close`. -/
def websocketClose (ws : WebSocket) : WebSocket :=
  if ws.state = .closed then ws
  else if 0 ≤ ws.fd then ws.closeSocket.setState .closed
  else ws.setState .closed

/-! ## Callbacks -/

def ApiCall.run (env : Env) (ws : WebSocket) : ApiCall → WebSocket
  | .send data isText => (websocketSend env ws (some data) isText).2
  | .close => websocketClose ws

/-- The application is called back and makes its own calls before it returns. -/
def WebSocket.callback (env : Env) (ws : WebSocket) (e : Event) : WebSocket :=
  (env ws.tick).calls.foldl (ApiCall.run env) (ws.record e).pass

/-- `WS_LOG`. -/
def WebSocket.wsLog (env : Env) (ws : WebSocket) (level : WSLogLevel) (msg : String) : WebSocket :=
  match ws.logCallback with
  | none => ws
  | some userData => ws.callback env (.log level msg userData)

/-! ## Incoming frames -/

/-- Unmasking in place, in the receive ring. -/
def WebSocket.unmaskRx (ws : WebSocket) (payload len : ℕ) (key : MaskingKey) : WebSocket :=
  { ws with rxRing := { ws.rxRing with buf := unmask ws.rxRing.buf payload len key } }

/-- The loop runs only when the mask bit is set. -/
def WebSocket.unmaskFrame (ws : WebSocket) (frame : WSFrame) (payload : ℕ) : WebSocket :=
  if frame.mask ≠ 0 then ws.unmaskRx payload frame.payloadLen frame.maskingKey else ws

/-- The metrics update for a received message. -/
def WebSocket.countReceived (ws : WebSocket) (len : ℕ) : WebSocket :=
  { ws with
    metrics := { ws.metrics with
      messagesReceived := ws.metrics.messagesReceived + 1
      bytesReceived := ws.metrics.bytesReceived + UInt64.ofNat len } }

/-- A latency sample is taken when a NIC timestamp is available. -/
def sampleLatency (env : Env) (ws : WebSocket) : WebSocket :=
  let nicTimestampNs := websocketGetLastNicTimestampNs ws
  if 0 < nicTimestampNs then
    let nowNs := (env ws.tick).now
    updateLatencySample ws.pass (if nicTimestampNs < nowNs then nowNs - nicTimestampNs else 0)
  else ws

/-- The end of the TEXT and BINARY branch: the application gets the payload. -/
def deliverMessage (env : Env) (ws : WebSocket) (payload : List UInt8) : WebSocket :=
  let ws := sampleLatency env (ws.countReceived payload.length)
  if ws.onMessage then ws.callback env (.message payload ws.callbackUserData) else ws

/-- The PONG branch. -/
def notePong (env : Env) (ws : WebSocket) : WebSocket :=
  { ws with lastPongReceivedNs := (env ws.tick).now }.pass.wsLog env .debug
    "Received heartbeat pong"

/-- The CLOSE branch. -/
def WebSocket.receiveClose (ws : WebSocket) : WebSocket :=
  (ws.record (.closeFrame ws.state)).setState .closing

/-- The part of the loop of `process_frames` that acts on a frame starting at cell `start`.
The payload is unmasked where it lies and handed on from there. -/
def handleFrame (env : Env) (ws : WebSocket) (frame : WSFrame) (start : ℕ) : WebSocket :=
  let payload := start + frame.headerSize
  if frame.opcode = wsOpcodeText ∨ frame.opcode = wsOpcodeBinary then
    let ws := ws.unmaskFrame frame payload
    deliverMessage env ws (load ws.rxRing.buf payload frame.payloadLen)
  else if frame.opcode = wsOpcodePing then
    let ws := ws.unmaskFrame frame payload
    (websocketSendPong env ws (load ws.rxRing.buf payload frame.payloadLen)).2
  else if frame.opcode = wsOpcodePong then notePong env ws
  else if frame.opcode = wsOpcodeClose then ws.receiveClose
  else ws

def WebSocket.countFrameError (ws : WebSocket) : WebSocket :=
  { ws with frameParseErrors := ws.frameParseErrors + 1 }

def WebSocket.countError (ws : WebSocket) : WebSocket :=
  { ws with metrics := { ws.metrics with errorsTotal := ws.metrics.errorsTotal + 1 } }

/-- The branch for a parse error: one byte is skipped. -/
def parseError (env : Env) (ws : WebSocket) (offset : ℕ) : WebSocket :=
  ws.countFrameError.countError.wsLog env .warn s!"Frame parse error at offset {offset}"

/-- The loop of `process_frames` over the bytes `data .. data + len` of the ring's
memory, with the attempts that are left. It returns `total_consumed`. -/
def processFramesLoop (env : Env) (data len : ℕ) :
    ℕ → ℕ → ℕ → WebSocket → ℕ × WebSocket
  | 0, _, totalConsumed, ws => (totalConsumed, ws)
  | attempts + 1, offset, totalConsumed, ws =>
    if offset < len then
      match neonParseWsFrame (fun i => ws.rxRing.buf (data + offset + i)) (len - offset) with
      | .needMore => (totalConsumed, ws)
      | .error =>
        processFramesLoop env data len attempts (offset + 1) totalConsumed
          (parseError env ws offset)
      | .ok frame =>
        let frameSize := frame.frameSize
        if frameSize = 0 ∨ len - offset < frameSize then
          processFramesLoop env data len attempts (offset + 1) totalConsumed ws.countFrameError
        else
          processFramesLoop env data len attempts (offset + frameSize) (totalConsumed + frameSize)
            (handleFrame env ws frame (data + offset))
    else (totalConsumed, ws)

/-- The read pointer moves over the consumed frames. -/
def WebSocket.advanceRx (ws : WebSocket) (n : ℕ) : WebSocket :=
  { ws with rxRing := { ws.rxRing with readPtr := (ws.rxRing.readPtr + n) % ws.rxRing.size } }

/-- `max_parse_attempts`. -/
def maxParseAttempts : ℕ := 1000

/-- `process_frames`. -/
def processFrames (env : Env) (ws : WebSocket) : WebSocket :=
  let view := ringbufferReadInline ws.rxRing
  if view.len = 0 then ws
  else
    let ws := ws.record (.frames (load ws.rxRing.buf view.data view.len))
    let r := processFramesLoop env view.data view.len maxParseAttempts 0 0 ws
    if 0 < r.1 then r.2.advanceRx r.1 else r.2

end WebSocketHft
