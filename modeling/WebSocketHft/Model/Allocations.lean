import WebSocketHft.Model.Process
import WebSocketHft.Shared.Ownership

/-! # What the connection allocates

The functions of `websocket.c`, `ringbuffer.c`, `io_kqueue.c` and `ssl.c` that allocate and
release, with the pointers they keep. An assignment to a pointer forgets what it pointed to.
The temporary blocks of one call (`masked_payload`, `response_lower`, `sorted`, the Base64
context) are released by the same call on every path and are left out. -/

namespace WebSocketHft.Heap

open WebSocketHft WebSocketHft.Ownership

/-- What is allocated: memory, a kqueue, or an object of a TLS library. -/
inductive Kind where
  | webSocket
  | latencySamples
  | url
  | ring
  | ioContext
  | kqueue
  | sslContext
  | readBuf
  | stCtx
  | osslCtx
  | osslSsl
  | socket
  deriving DecidableEq, Repr

abbrev Block := Handle Kind

/-! ## `tcp_connect` -/

/-- What `socket` and `connect` answer for one address. -/
structure AddressAnswer where
  created : Bool
  connected : Bool
  deriving DecidableEq, Repr

/-- The loop over the addresses: the descriptor of the first that can be connected. -/
def tcpConnectLoop (heap : Inventory Kind) : List AddressAnswer → Option Block × Inventory Kind
  | [] => (none, heap)
  | a :: addresses =>
    match heap.acquire a.created .socket with
    | (none, heap) => tcpConnectLoop heap addresses
    | (some fd, heap) =>
      if a.connected then (some fd, heap) else tcpConnectLoop (heap.release fd) addresses

/-- `tcp_connect`; `lookup` is what `getaddrinfo` finds, if it does not fail. -/
def tcpConnect (heap : Inventory Kind) (lookup : Option (List AddressAnswer)) :
    Option Block × Inventory Kind :=
  match lookup with
  | none => (none, heap)
  | some addresses => tcpConnectLoop heap addresses

/-! ## `ssl.c` -/

/-- `struct SSLContext`, as far as it holds something. -/
structure SSLContext where
  self : Block
  backend : SSLBackend
  readBuf : Block
  stCtx : Option Block
  osslCtx : Option Block
  osslSsl : Option Block
  deriving DecidableEq, Repr

/-- What `ssl_init` is answered; `haveOpenssl` is a constant of the build. -/
structure SslInitAnswers where
  ctxAllocated : Bool := true
  bufAllocated : Bool := true
  newContext : Bool := true
  setIOFuncs : Bool := true
  haveOpenssl : Bool := true
  osslCtxCreated : Bool := true
  deriving DecidableEq, Repr

/-- The OpenSSL part of `ssl_init`, with the SecureTransport context left from the first part. -/
def sslInitOpenssl (heap : Inventory Kind) (self readBuf : Block) (stCtx : Option Block)
    (a : SslInitAnswers) : Option SSLContext × Inventory Kind :=
  if a.haveOpenssl then
    match heap.acquire a.osslCtxCreated .osslCtx with
    | (none, heap) => (none, (heap.release readBuf).release self)
    | (some osslCtx, heap) => (some ⟨self, .openSSL, readBuf, stCtx, some osslCtx, none⟩, heap)
  else (none, (heap.release readBuf).release self)

/-- `ssl_init`. -/
def sslInit (heap : Inventory Kind) (a : SslInitAnswers) : Option SSLContext × Inventory Kind :=
  match heap.acquire a.ctxAllocated .sslContext with
  | (none, heap) => (none, heap)
  | (some self, heap) =>
    match heap.acquire a.bufAllocated .readBuf with
    | (none, heap) => (none, heap.release self)
    | (some readBuf, heap) =>
      match heap.acquire a.newContext .stCtx with
      | (none, heap) => sslInitOpenssl heap self readBuf none a
      | (some stCtx, heap) =>
        if a.setIOFuncs then
          (some ⟨self, .secureTransport, readBuf, some stCtx, none, none⟩, heap)
        else sslInitOpenssl heap self readBuf (some stCtx) a

/-- What `SSLHandshake` returns, as far as `ssl_connect` tells it apart. -/
inductive HandshakeStatus where
  | noErr
  | errSSLWouldBlock
  | errSSLProtocol
  | other
  deriving DecidableEq, Repr

/-- What `ssl_connect` is answered; `sslConnect` says whether `SSL_connect` is done or waits. -/
structure SslConnectAnswers where
  setConnection : Bool := true
  setPeerDomainName : Bool := true
  handshake : HandshakeStatus := .noErr
  sslCreated : Bool := true
  sslConnect : Bool := true
  deriving DecidableEq, Repr

/-- `ssl_connect` with a descriptor that is not negative. -/
def sslConnect (heap : Inventory Kind) (ctx : SSLContext) (a : SslConnectAnswers) :
    ℤ × SSLContext × Inventory Kind :=
  match ctx.backend with
  | .secureTransport =>
    if a.setConnection = false then (-1, ctx, heap)
    else if a.setPeerDomainName = false then (-1, ctx, heap)
    else if a.handshake = .other then (-1, ctx, heap)
    else (0, ctx, heap)
  | .openSSL =>
    match heap.acquire a.sslCreated .osslSsl with
    | (none, heap) => (-1, { ctx with osslSsl := none }, heap)
    | (some osslSsl, heap) =>
      (if a.sslConnect then 0 else -1, { ctx with osslSsl := some osslSsl }, heap)

/-- `ssl_cleanup`: each backend releases its own objects only. -/
def sslCleanup (heap : Inventory Kind) (ctx : SSLContext) : Inventory Kind :=
  let heap :=
    match ctx.backend with
    | .secureTransport => heap.releaseIfAny ctx.stCtx
    | .openSSL => (heap.releaseIfAny ctx.osslSsl).releaseIfAny ctx.osslCtx
  (heap.release ctx.readBuf).release ctx.self

/-! ## The connection -/

/-- `IOContext` and its kqueue. -/
structure IOContext where
  self : Block
  kq : Option Block
  deriving DecidableEq, Repr

/-- The pointers of `struct WebSocket`, and whether the last URL was one of TLS. -/
structure WebSocket where
  self : Block
  useSsl : Bool
  latencySamples : Option Block
  url : Option Block
  rxBuf : Option Block
  txBuf : Option Block
  ioCtx : Option IOContext
  sslCtx : Option SSLContext
  heap : Inventory Kind

/-- `websocket_create`, if the object can be allocated. -/
def websocketCreate (samplesAllocated : Bool) : WebSocket :=
  let heap : Inventory Kind := ⟨1, [⟨.webSocket, 0⟩], []⟩
  let r := heap.acquire samplesAllocated .latencySamples
  ⟨⟨.webSocket, 0⟩, false, r.1, none, none, none, none, none, r.2⟩

/-- What `websocket_connect` is answered on the way. -/
structure ConnectAnswers where
  urlCopied : Bool := true
  rxInit : Bool := true
  txInit : Bool := true
  ctxAllocated : Bool := true
  kqueue : Bool := true
  lookup : Option (List AddressAnswer) := some [⟨true, true⟩]
  ssl : SslInitAnswers := {}
  session : SslConnectAnswers := {}
  configured : Bool := true
  registered : Bool := true
  encoded : Option (List UInt8) := none
  deriving DecidableEq, Repr

/-- `ws->url = strdup(url)`. -/
def WebSocket.copyUrl (ws : WebSocket) (copied : Bool) : WebSocket :=
  let r := ws.heap.acquire copied .url
  { ws with url := r.1, heap := r.2 }

/-- `ringbuffer_init(&ws->rx_ring)`: the pointer stays if the allocation fails. -/
def WebSocket.initRx (ws : WebSocket) (allocated : Bool) : WebSocket :=
  match ws.heap.acquire allocated .ring with
  | (none, heap) => { ws with heap := heap }
  | (some buf, heap) => { ws with rxBuf := some buf, heap := heap }

/-- `ringbuffer_init(&ws->tx_ring)`. -/
def WebSocket.initTx (ws : WebSocket) (allocated : Bool) : WebSocket :=
  match ws.heap.acquire allocated .ring with
  | (none, heap) => { ws with heap := heap }
  | (some buf, heap) => { ws with txBuf := some buf, heap := heap }

/-- `malloc` and `io_init`. -/
def WebSocket.initIo (ws : WebSocket) (allocated created : Bool) : WebSocket :=
  match ws.heap.acquire allocated .ioContext with
  | (none, heap) => { ws with ioCtx := none, heap := heap }
  | (some self, heap) =>
    let r := heap.acquire created .kqueue
    { ws with ioCtx := some ⟨self, r.1⟩, heap := r.2 }

def ioCleanup (heap : Inventory Kind) (ctx : IOContext) : Inventory Kind :=
  heap.releaseIfAny ctx.kq

/-- `io_cleanup(ws->io_ctx); free(ws->io_ctx); ws->io_ctx = NULL`. -/
def WebSocket.dropIo (ws : WebSocket) : WebSocket :=
  match ws.ioCtx with
  | none => ws
  | some ctx => { ws with ioCtx := none, heap := (ioCleanup ws.heap ctx).release ctx.self }

/-- `ssl_cleanup(ws->ssl_ctx); ws->ssl_ctx = NULL`. -/
def WebSocket.dropSsl (ws : WebSocket) : WebSocket :=
  match ws.sslCtx with
  | none => ws
  | some ctx => { ws with sslCtx := none, heap := sslCleanup ws.heap ctx }

/-- `free(ws->url); ws->url = NULL`. -/
def WebSocket.dropUrl (ws : WebSocket) : WebSocket :=
  { ws with url := none, heap := ws.heap.releaseIfAny ws.url }

/-- `ringbuffer_cleanup` of both rings. -/
def WebSocket.dropRings (ws : WebSocket) : WebSocket :=
  { ws with
    rxBuf := none
    txBuf := none
    heap := (ws.heap.releaseIfAny ws.rxBuf).releaseIfAny ws.txBuf }

/-- The exit `cleanup:`, apart from the descriptor. -/
def connectCleanup (ws : WebSocket) : WebSocket :=
  ws.dropIo.dropUrl.dropRings

/-- The TLS part: `false` means that the caller goes to `cleanup:`. -/
def connectSsl (ws : WebSocket) (a : ConnectAnswers) : Bool × WebSocket :=
  if ws.useSsl then
    match sslInit ws.heap a.ssl with
    | (none, heap) => (false, { ws with heap := heap })
    | (some ctx, heap) =>
      let r := sslConnect heap ctx a.session
      let ws := { ws with sslCtx := some r.2.1, heap := r.2.2 }
      if r.1 ≠ 0 then (false, ws.dropSsl) else (true, ws)
  else (true, ws)

/-- From `io_add_socket` on; `handshake` is the outcome of `send_handshake`. -/
def connectSocket (ws : WebSocket) (a : ConnectAnswers) (handshake : Bool) : ℤ × WebSocket :=
  if a.configured = false ∨ a.registered = false then
    (-1, connectCleanup (if ws.useSsl then ws.dropSsl else ws))
  else if handshake = false then (-1, connectCleanup ws)
  else (0, ws)

/-- From the allocation of the I/O context on. The descriptor is followed by the connection
itself, so that the loop of `tcp_connect` runs on an inventory of its own. -/
def connectIo (ws : WebSocket) (a : ConnectAnswers) (handshake : Bool) : ℤ × WebSocket :=
  let ws := ws.initIo a.ctxAllocated a.kqueue
  if a.ctxAllocated = false ∨ a.kqueue = false then (-1, connectCleanup ws)
  else if (tcpConnect .empty a.lookup).1 = none then (-1, connectCleanup ws)
  else
    let r := connectSsl ws a
    if r.1 = false then (-1, connectCleanup r.2) else connectSocket r.2 a handshake

/-- From the initialisation of the rings on. -/
def connectRings (ws : WebSocket) (a : ConnectAnswers) (handshake : Bool) : ℤ × WebSocket :=
  let ws := ws.initRx a.rxInit
  if a.rxInit = false then (-1, connectCleanup ws)
  else
    let ws := ws.initTx a.txInit
    if a.txInit = false then (-1, connectCleanup ws) else connectIo ws a handshake

/-- `websocket_connect`. -/
def websocketConnect (ws : WebSocket) (url : List UInt8) (a : ConnectAnswers)
    (handshake : Bool) : ℤ × WebSocket :=
  let parsed := parseUrl url 256 1024 ⟨[], [], 0, ws.useSsl⟩
  let ws := { ws.copyUrl a.urlCopied with useSsl := parsed.2.useSsl }
  if parsed.1 ≠ 0 then (-1, ws.dropUrl) else connectRings ws a handshake

/-- `websocket_destroy`. -/
def websocketDestroy (ws : WebSocket) : Inventory Kind :=
  let ws := ws.dropSsl.dropIo.dropRings
  (((ws.heap.releaseIfAny ws.latencySamples).releaseIfAny ws.url).release ws.self)

end WebSocketHft.Heap
