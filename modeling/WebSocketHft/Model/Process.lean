import WebSocketHft.Model.Handshake

/-! # The life of a connection

`websocket_connect`, the event loop of `websocket_process` with its periodic
checks, and `websocket_destroy`. -/

namespace WebSocketHft

open WebSocketHft.Substring

/-! ## Connecting -/

/-- What the surroundings answer to the steps of `websocket_connect`, in order. -/
structure ConnectAnswers where
  rxInit : Bool := true
  txInit : Bool := true
  ctxAllocated : Bool := true
  kqueue : Bool := true
  tcp : Bool := true
  backend : Option SSLBackend := some .secureTransport
  established : Bool := true
  configured : Bool := true
  registered : Bool := true
  encoded : Option (List UInt8) := none
  deriving DecidableEq, Repr

/-- The exit `cleanup:`. -/
def connectCleanup (ws : WebSocket) : WebSocket :=
  let ws := if 0 ≤ ws.fd then { ws with fd := -1 }.record (.closed ws.fd) else ws
  { ws with
    ioCtx := none
    rxRing := ringbufferCleanup
    txRing := ringbufferCleanup }

/-- `ssl_cleanup(ws->ssl_ctx); ws->ssl_ctx = NULL`. -/
def WebSocket.dropSsl (ws : WebSocket) : WebSocket :=
  match ws.sslCtx with
  | none => ws
  | some ctx =>
    let ws := { ws with sslCtx := none }
    match sslCleanup ctx with
    | none => ws
    | some fd => ws.record (.closed fd)

/-- The TLS part: `false` means that the caller goes to `cleanup:`. -/
def connectSsl (ws : WebSocket) (a : ConnectAnswers) : Bool × WebSocket :=
  if ws.useSsl then
    match sslInit a.backend with
    | none => (false, ws)
    | some ctx =>
      let r := sslConnect ctx ws.fd a.established
      let ws := { ws with sslCtx := some r.2 }
      if r.1 ≠ 0 then (false, ws.dropSsl) else (true, ws)
  else (true, ws)

/-- What `io_add_socket` has returned and registered. -/
def WebSocket.addSocket (ws : WebSocket) (added : ℤ × IOContext) : WebSocket :=
  { ws with socketIndex := added.1, ioCtx := some added.2 }

/-- From `io_add_socket` on. -/
def connectSocket (env : Env) (ws : WebSocket) (ctx : IOContext) (a : ConnectAnswers) :
    ℤ × WebSocket :=
  let ws := ws.addSocket (ioAddSocket ctx ws.fd a.configured a.registered)
  if ws.socketIndex < 0 then
    let ws := if ws.useSsl then ws.dropSsl else ws
    (-1, connectCleanup ws)
  else
    let r := sendHandshake env ws a.encoded
    if r.1 ≠ 0 then (-1, connectCleanup r.2)
    else (0, r.2.setState .connecting)

/-- What `parse_url` has written. -/
def WebSocket.setUrl (ws : WebSocket) (parts : UrlParts) : WebSocket :=
  { ws with host := parts.host, path := parts.path, port := parts.port, useSsl := parts.useSsl }

/-- Both rings freshly allocated. -/
def WebSocket.initRings (ws : WebSocket) : WebSocket :=
  { ws with rxRing := ringbufferInit, txRing := ringbufferInit }

def WebSocket.setIo (ws : WebSocket) (ctx : IOContext) : WebSocket :=
  { ws with ioCtx := some ctx }

/-- `tcp_connect` has handed over a descriptor. -/
def WebSocket.openSocket (ws : WebSocket) : WebSocket :=
  { ws with fd := ws.nextFd, nextFd := ws.nextFd + 1 }.record (.opened ws.nextFd)

/-- `websocket_connect`. -/
def websocketConnect (env : Env) (ws : WebSocket) (url : List UInt8) (a : ConnectAnswers) :
    ℤ × WebSocket :=
  let parsed := parseUrl url 256 1024 ⟨ws.host, ws.path, ws.port, ws.useSsl⟩
  let ws := ws.setUrl parsed.2
  if parsed.1 ≠ 0 then (-1, ws)
  else if a.rxInit = false then (-1, connectCleanup ws)
  else if a.txInit = false then (-1, connectCleanup { ws with rxRing := ringbufferInit })
  else
    let ws := ws.initRings
    match (if a.ctxAllocated then ioInit a.kqueue else none) with
    | none => (-1, connectCleanup ws)
    | some ctx =>
      let ws := ws.setIo ctx
      if a.tcp = false then (-1, connectCleanup { ws with fd := -1 })
      else
        let r := connectSsl ws.openSocket a
        if r.1 = false then (-1, connectCleanup r.2)
        else connectSocket env r.2 ctx a

/-- `websocket_destroy`, up to the release of the object. -/
def websocketDestroy (ws : WebSocket) : WebSocket :=
  let ws :=
    if ws.state = .connected ∨ ws.state = .connecting then websocketClose ws else ws
  let ws := ws.dropSsl
  { ws with
    ioCtx := none
    rxRing := ringbufferCleanup
    txRing := ringbufferCleanup
    latencySamples := none
    latencySampleCount := 0
    latencySampleCapacity := 0 }

/-! ## Periodic checks -/

/-- `check_health`. -/
def checkHealth (env : Env) (ws : WebSocket) : WebSocket :=
  match ws.onHealth with
  | none => ws
  | some userData =>
    let nowNs := (env ws.tick).now
    let ws := ws.pass
    if nowNs - ws.lastHealthCheckNs < 1000000000 then ws
    else
      let ws := { ws with lastHealthCheckNs := nowNs }
      let newHealth := websocketGetHealth ws
      if newHealth = ws.currentHealth then ws
      else
        let reason :=
          match newHealth with
          | .unhealthy =>
            if ws.state ≠ .connected then "Connection not connected" else "High error rate"
          | .degraded => "High latency or buffer saturation"
          | .ok => "All systems normal"
        { ws with currentHealth := newHealth }.callback env (.health newHealth reason userData)

/-- `report_metrics_if_needed`. -/
def reportMetricsIfNeeded (env : Env) (ws : WebSocket) : WebSocket :=
  match ws.onMetrics with
  | none => ws
  | some userData =>
    let nowNs := (env ws.tick).now
    let ws := ws.pass
    if nowNs - ws.metricsLastReportNs < 1000000000 then ws
    else
      let ws := { ws with metricsLastReportNs := nowNs }
      let r := websocketGetMetrics ws (env ws.tick).now (env ws.tick).allocated
      r.2.pass.callback env (.metrics r.1 userData)

/-- The ping of `check_heartbeat`. -/
def pingFrame : List UInt8 := [0x89, 0x00]

/-- Is a ping due at the time `nowNs`? -/
def pingDue (ws : WebSocket) (nowNs : UInt64) : Bool :=
  ws.lastPingSentNs = 0 ∨
    ws.heartbeatConfig.pingIntervalMs.toUInt64 * 1000000 ≤ nowNs - ws.lastPingSentNs

/-- The first half of `check_heartbeat`: a ping counts as sent when it was queued whole. -/
def sendHeartbeat (env : Env) (ws : WebSocket) (nowNs : UInt64) : WebSocket :=
  if pingDue ws nowNs then
    let ws := ws.record (.transmit pingFrame [] [] (ringbufferWriteable ws.txRing) true)
    let r := ws.queueTx pingFrame
    if r.1 = 2 then
      let ws := { r.2.flush env with lastPingSentNs := nowNs }
      ws.wsLog env .debug "Sent heartbeat ping"
    else r.2
  else ws

/-- The second half of `check_heartbeat`. -/
def checkPongTimeout (env : Env) (ws : WebSocket) (nowNs pongTimeoutNs : UInt64) : WebSocket :=
  if 0 < ws.lastPingSentNs ∧ ws.lastPongReceivedNs < ws.lastPingSentNs then
    if pongTimeoutNs ≤ nowNs - ws.lastPingSentNs then
      let timeoutMs := ws.heartbeatConfig.pongTimeoutMs
      let ws := ws.wsLog env .warn s!"Heartbeat timeout: no pong received within {timeoutMs} ms"
      let ws :=
        if ws.heartbeatConfig.onHeartbeatTimeout then
          ws.callback env (.heartbeatTimeout ws.heartbeatConfig.heartbeatUserData)
        else ws
      { ws with lastPingSentNs := 0 }
    else ws
  else ws

/-- `check_heartbeat`. -/
def checkHeartbeat (env : Env) (ws : WebSocket) : WebSocket :=
  if ws.heartbeatConfig.enableHeartbeat = false ∨ ws.state ≠ .connected then ws
  else
    let nowNs := (env ws.tick).now
    let pongTimeoutNs := ws.heartbeatConfig.pongTimeoutMs.toUInt64 * 1000000
    checkPongTimeout env (sendHeartbeat env ws.pass nowNs) nowNs pongTimeoutNs

/-! ## One event -/

/-- The loop that drives the TLS handshake; `iterations` have been made before. -/
def sslHandshakeLoop (env : Env) : ℕ → ℕ → Bool → WebSocket → WebSocket
  | 0, _, _, ws => ws
  | left + 1, iterations, madeProgress, ws =>
    let w := ws.writeSsl env
    let r := w.2.readSsl env
    let iterations := iterations + 1
    let complete := sslIsHandshakeComplete r.2.sslCtx (env r.2.tick).initFinished
    let ws := r.2.pass
    if complete then ws
    else if 0 < r.1 ∨ 0 < w.1 then sslHandshakeLoop env left iterations true ws
    else if r.1 = 0 ∧ w.1 = 0 ∧ (madeProgress ∨ 5 ≤ iterations) then ws
    else if (r.1 < 0 ∨ w.1 < 0) ∧ 10 ≤ iterations then ws
    else sslHandshakeLoop env left iterations madeProgress ws

/-- The loop that reads until nothing more is available. -/
def sslReadLoop (env : Env) : ℕ → WebSocket → WebSocket
  | 0, ws => ws
  | left + 1, ws =>
    let r := ws.readSsl env
    if r.1 ≤ 0 then r.2 else sslReadLoop env left r.2

/-- The bytes of a host name as text. -/
def hostText (host : List UInt8) : String :=
  String.ofList (host.map fun c => Char.ofNat c.toNat)

/-- `ws->state = WS_STATE_CONNECTED`. -/
def WebSocket.becomeConnected (ws : WebSocket) : WebSocket :=
  (ws.record (.connected ws.rxRing.queue)).setState .connected

/-- What `websocket_process` does once the response has been accepted. -/
def handshakeComplete (env : Env) (ws : WebSocket) : WebSocket :=
  let ws := ws.becomeConnected
  let ws :=
    if ws.connectionStartNs = 0 then
      let ws := { ws with connectionStartNs := (env ws.tick).now }.pass
      let host := hostText ws.host
      let port := ws.port
      ws.wsLog env .info s!"WebSocket connected to {host}:{port}"
    else ws
  if ws.reconnectConfig.resetBackoffOnSuccess then
    { ws with reconnectState := ⟨0, ws.reconnectConfig.initialBackoffMs, false⟩ }
  else ws

/-- The end of the CONNECTING branch: the response is looked at, if there is any. -/
def handshakeStep (env : Env) (ws : WebSocket) : WebSocket :=
  let view := ringbufferReadInline ws.rxRing
  if 0 < view.len then
    let r := parseHandshakeResponse ws.rxRing (env ws.tick).allocated
    let ws := { ws with rxRing := r.2 }.pass
    if r.1 = 0 then handshakeComplete env ws
    else if r.1 < 0 ∧ 200 < view.len ∧
        (findInfix (ascii "HTTP") (cStringAt ws.rxRing view.data)).isSome then
      let ws :=
        if ws.onError then
          ws.callback env (.error (-1) "Handshake failed: invalid HTTP response" ws.callbackUserData)
        else ws
      websocketClose ws
    else ws
  else ws

/-- The reads and writes of the CONNECTING branch on a TLS connection. -/
def connectingSsl (env : Env) (ws : WebSocket) : WebSocket :=
  if ws.useSsl then
    let ws := sslHandshakeLoop env 20 0 false ws
    sslReadLoop env 20 (ws.writeSsl env).2
  else ws

/-- The loop that repeats `process_frames` until the read pointer stops moving. -/
def drainFrames (env : Env) : ℕ → WebSocket → WebSocket
  | 0, ws => ws
  | fuel + 1, ws =>
    let before := ws.rxRing.readPtr
    let ws := processFrames env ws
    if ws.rxRing.readPtr = before then ws else drainFrames env fuel ws

/-- The CONNECTED branch. Every pass but the last one consumes at least one byte. -/
def connectedStep (env : Env) (ws : WebSocket) : WebSocket :=
  let ws := processFrames env ws
  drainFrames env (ringbufferReadable ws.rxRing + 1) ws

/-- One round of the loop over the events. -/
def handleEvent (env : Env) (ws : WebSocket) (ev : KEvent) : WebSocket :=
  if ev.eof ∨ ev.error then
    if ws.state = .connected ∨ ws.state = .connecting then
      let ws := ws.setState .closed
      if ws.onError then
        ws.callback env (.error (-1) "Connection closed by peer" ws.callbackUserData)
      else ws
    else ws
  else if ev.filter = .read then
    let ws := if ws.useSsl then (ws.readSsl env).2 else (ws.readIo ev.udata ev.recv).2
    if ws.state = .connecting then handshakeStep env (connectingSsl env ws)
    else if ws.state = .connected then connectedStep env ws
    else ws
  else ws

/-! ## Draining a TLS connection -/

/-- The inner drain loop, bounded and stopped when the connection is gone. -/
def sslDrainFrames (env : Env) : ℕ → WebSocket → WebSocket
  | 0, ws => ws
  | left + 1, ws =>
    if ws.state = .connected then
      let before := ws.rxRing.readPtr
      let ws := processFrames env ws
      if ws.rxRing.readPtr = before then ws
      else if ws.state ≠ .connected then ws
      else sslDrainFrames env left ws
    else ws

/-- The loop over `ssl_read`; `attempts` have been made before. -/
def sslDrain (env : Env) : ℕ → ℕ → Bool → WebSocket → WebSocket
  | 0, _, _, ws => ws
  | left + 1, attempts, madeProgress, ws =>
    if ws.state = .connected then
      let attempts := attempts + 1
      let r := ws.readSsl env
      let ws := r.2
      if ws.state ≠ .connected then processFrames env ws
      else if 0 < r.1 then
        sslDrain env left attempts true (sslDrainFrames env 50 (processFrames env ws))
      else if r.1 = 0 then
        let ws := processFrames env ws
        if madeProgress ∧ attempts < 5 then sslDrain env left attempts madeProgress ws else ws
      else
        let ws := ws.setState .closed
        let ws :=
          if ws.onError then
            ws.callback env (.error (-1) "SSL connection closed" ws.callbackUserData)
          else ws
        processFrames env ws
    else ws

/-- What follows the loop over the events. -/
def processTail (env : Env) (ws : WebSocket) : WebSocket :=
  let ws :=
    if ws.state = .connected ∧ ws.useSsl then
      let ws := sslDrain env 200 0 false ws
      if ws.state = .connected then processFrames env ws else ws
    else if ws.state = .connected then processFrames env ws
    else ws
  if ws.state = .connected then
    checkHeartbeat env (reportMetricsIfNeeded env (checkHealth env ws))
  else ws

/-- `websocket_process`; `events` is what `kevent` delivers. -/
def websocketProcess (env : Env) (ws : WebSocket) (events : Option (List KEvent)) :
    ℤ × WebSocket :=
  match ws.ioCtx with
  | none => (-1, ws)
  | some ctx =>
    let polled := ioPoll ctx events
    let ws := { ws with ioCtx := some polled.2 }
    match events with
    | none => (-1, ws)
    | some events => (events.length, processTail env (events.foldl (handleEvent env) ws))

end WebSocketHft
