import Mathlib.Data.Rat.Defs
import WebSocketHft.Model.IoKqueue
import WebSocketHft.Model.ParserNeon
import WebSocketHft.Model.Ssl

/-! # The connection object of `websocket.c`

The object is one record. Clocks, random bytes, allocation, the TLS library,
`writev` and the application's callbacks belong to the surroundings: each use of
one of them reads the answers for the current moment and moves on to the next.
Counters and times are `uint64_t`; `double` figures are exact rationals. -/

namespace WebSocketHft

/-! ## Configuration and measurements -/

inductive WSState where
  | connecting
  | connected
  | closing
  | closed
  deriving DecidableEq, Repr

def wsOpcodeText : UInt8 := 0x1
def wsOpcodeBinary : UInt8 := 0x2
def wsOpcodeClose : UInt8 := 0x8
def wsOpcodePing : UInt8 := 0x9
def wsOpcodePong : UInt8 := 0xA

structure WebSocketMetrics where
  messagesReceived : UInt64
  messagesSent : UInt64
  errorsTotal : UInt64
  bytesReceived : UInt64
  bytesSent : UInt64
  latencyP50Ns : ℚ
  latencyP99Ns : ℚ
  throughputMsgPerSec : ℚ
  ringbufferUtilization : ℚ
  connectionUptimeNs : UInt64
  deriving DecidableEq, Repr

def WebSocketMetrics.zero : WebSocketMetrics :=
  ⟨0, 0, 0, 0, 0, 0, 0, 0, 0, 0⟩

inductive WSHealthStatus where
  | ok
  | degraded
  | unhealthy
  deriving DecidableEq, Repr

inductive WSLogLevel where
  | debug
  | info
  | warn
  | error
  deriving DecidableEq, Repr

/-- A `void*` given by the application. -/
abbrev UserData := ℕ

structure WSReconnectConfig where
  autoReconnect : Bool
  maxRetries : UInt32
  initialBackoffMs : UInt32
  maxBackoffMs : UInt32
  backoffMultiplier : ℚ
  resetBackoffOnSuccess : Bool
  deriving DecidableEq, Repr

structure WSReconnectState where
  reconnectAttempts : UInt32
  nextBackoffMs : UInt32
  isReconnecting : Bool
  deriving DecidableEq, Repr

/-- `on_heartbeat_timeout` is kept as whether it is set. -/
structure WSHeartbeatConfig where
  enableHeartbeat : Bool
  pingIntervalMs : UInt32
  pongTimeoutMs : UInt32
  onHeartbeatTimeout : Bool
  heartbeatUserData : UserData
  deriving DecidableEq, Repr

/-! ## The surroundings -/

/-- A call the application makes from inside a callback. -/
inductive ApiCall where
  | send (data : List UInt8) (isText : Bool)
  | close
  deriving DecidableEq, Repr

/-- Everything the surroundings can be asked at one moment. -/
structure Answers where
  now : UInt64 := 0
  maskingKey : MaskingKey := ⟨0, 0, 0, 0⟩
  allocated : Bool := true
  writev : Option ℕ := none
  tls : TlsAnswer := ⟨.errSSLWouldBlock, [], 0, true, none⟩
  initFinished : Bool := true
  calls : List ApiCall := []
  deriving DecidableEq, Repr

abbrev Env := ℕ → Answers

/-- What an observer of the connection sees: callbacks, descriptors handed over by
`tcp_connect` and passed to `close`, bytes that entered or left the rings. Some events tell
what a function finds when it starts: `closing` the descriptor of the connection and the one
its TLS context holds, `transmit` a frame as it is handed to the ring, its payload in clear,
the free space and the outcome of `malloc`, `frames` the bytes that `process_frames` looks at,
`closeFrame` the state in which it comes to a CLOSE frame. `state` tells of an assignment to
`ws->state`, with the value before it, and `connected` what is queued when the connection
becomes CONNECTED. -/
inductive Event where
  | message (payload : List UInt8) (userData : UserData)
  | error (code : ℤ) (msg : String) (userData : UserData)
  | metrics (metrics : WebSocketMetrics) (userData : UserData)
  | health (status : WSHealthStatus) (reason : String) (userData : UserData)
  | log (level : WSLogLevel) (msg : String) (userData : UserData)
  | heartbeatTimeout (userData : UserData)
  | opened (fd : ℤ)
  | closing (fd sslFd : ℤ)
  | closed (fd : ℤ)
  | state (before after : WSState)
  | connected (pending : List UInt8)
  | received (bytes : List UInt8)
  | sent (bytes : List UInt8)
  | request (bytes : List UInt8)
  | transmit (header payload clear : List UInt8) (space : ℕ) (allocated : Bool)
  | queued (bytes : List UInt8)
  | frames (data : List UInt8)
  | closeFrame (state : WSState)
  deriving DecidableEq, Repr

/-- The payload of a message callback. -/
def Event.payload? : Event → Option (List UInt8)
  | .message payload _ => some payload
  | _ => none

/-- The payloads passed to `on_message`, in order. -/
def messagesOf (trace : List Event) : List (List UInt8) := trace.filterMap Event.payload?

/-- The bytes put into the transmit ring. -/
def Event.queuedBytes? : Event → Option (List UInt8)
  | .queued bytes => some bytes
  | _ => none

/-- What went into the transmit ring, in order. -/
def queuedOf (trace : List Event) : List (List UInt8) := trace.filterMap Event.queuedBytes?

/-- The bytes put into the receive ring. -/
def Event.receivedBytes : Event → List UInt8
  | .received bytes => bytes
  | _ => []

/-- What went into the receive ring, in order. -/
def receivedOf (trace : List Event) : List UInt8 := trace.flatMap Event.receivedBytes

/-! ## The object -/

/-- `struct WebSocket`. A callback that carries its own user data is an option; the
message and error callbacks share theirs. The last three fields are not part of the
program: the moment, the next descriptor `tcp_connect` will hand out, and what has
been observed so far. -/
structure WebSocket where
  state : WSState
  fd : ℤ
  sslCtx : Option SSLContext
  ioCtx : Option IOContext
  rxRing : RingBuffer
  txRing : RingBuffer
  onMessage : Bool
  onError : Bool
  callbackUserData : UserData
  host : List UInt8
  path : List UInt8
  port : ℤ
  useSsl : Bool
  secWebsocketKey : List UInt8
  socketIndex : ℤ
  frameParseErrors : UInt32
  metrics : WebSocketMetrics
  metricsLastReportNs : UInt64
  connectionStartNs : UInt64
  latencySamples : Option (List UInt64)
  latencySampleCount : ℕ
  latencySampleCapacity : ℕ
  latencySampleIdx : ℕ
  onMetrics : Option UserData
  onHealth : Option UserData
  logCallback : Option UserData
  currentHealth : WSHealthStatus
  lastHealthCheckNs : UInt64
  reconnectConfig : WSReconnectConfig
  reconnectState : WSReconnectState
  lastReconnectAttemptNs : UInt64
  heartbeatConfig : WSHeartbeatConfig
  lastPingSentNs : UInt64
  lastPongReceivedNs : UInt64
  tick : ℕ
  nextFd : ℕ
  trace : List Event

/-- `websocket_create`; `allocated` is the outcome of the sample array's `calloc`. -/
def websocketCreate (allocated : Bool) : WebSocket where
  state := .closed
  fd := -1
  sslCtx := none
  ioCtx := none
  rxRing := ringbufferCleanup
  txRing := ringbufferCleanup
  onMessage := false
  onError := false
  callbackUserData := 0
  host := []
  path := []
  port := 0
  useSsl := false
  secWebsocketKey := []
  socketIndex := -1
  frameParseErrors := 0
  metrics := .zero
  metricsLastReportNs := 0
  connectionStartNs := 0
  latencySamples := if allocated then some (List.replicate 1000 0) else none
  latencySampleCount := 0
  latencySampleCapacity := if allocated then 1000 else 0
  latencySampleIdx := 0
  onMetrics := none
  onHealth := none
  logCallback := none
  currentHealth := .ok
  lastHealthCheckNs := 0
  reconnectConfig := ⟨false, 0, 100, 30000, 2, true⟩
  reconnectState := ⟨0, 100, false⟩
  lastReconnectAttemptNs := 0
  heartbeatConfig := ⟨false, 0, 0, false, 0⟩
  lastPingSentNs := 0
  lastPongReceivedNs := 0
  tick := 0
  nextFd := 0
  trace := []

/-- `websocket_set_on_message`. -/
def websocketSetOnMessage (ws : WebSocket) (callback : Bool) (userData : UserData) : WebSocket :=
  { ws with onMessage := callback, callbackUserData := userData }

/-- `websocket_set_on_error`. -/
def websocketSetOnError (ws : WebSocket) (callback : Bool) (userData : UserData) : WebSocket :=
  { ws with onError := callback, callbackUserData := userData }

/-- `websocket_set_heartbeat_config`. -/
def websocketSetHeartbeatConfig (ws : WebSocket) (config : WSHeartbeatConfig) : WebSocket :=
  { ws with heartbeatConfig := config, lastPingSentNs := 0, lastPongReceivedNs := 0 }

/-! ## Observing and asking -/

def WebSocket.record (ws : WebSocket) (e : Event) : WebSocket :=
  { ws with trace := ws.trace ++ [e] }

/-- Moves on to the next moment. -/
def WebSocket.pass (ws : WebSocket) : WebSocket :=
  { ws with tick := ws.tick + 1 }

/-- The descriptor held by the TLS context, `-1` if there is none. -/
def sslContextFd : Option SSLContext → ℤ
  | none => -1
  | some ctx => ctx.fd

def WebSocket.sslFd (ws : WebSocket) : ℤ := sslContextFd ws.sslCtx

/-- `websocket_get_last_nic_timestamp_ns`. -/
def websocketGetLastNicTimestampNs (ws : WebSocket) : UInt64 :=
  if ws.socketIndex < 0 then 0
  else if ws.useSsl ∧ ws.sslCtx.isSome then sslGetLastNicTimestampNs ws.sslCtx
  else ioGetLastNicTimestampNs ws.ioCtx ws.socketIndex

end WebSocketHft
