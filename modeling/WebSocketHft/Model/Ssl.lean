import WebSocketHft.Model.Ringbuffer

/-! # The TLS layer of `ssl.c`

SecureTransport and OpenSSL lie outside the repository. What they answer to a
read or a write is an argument: a status, the bytes stored and reported by a
read, the number of bytes taken by a write. -/

namespace WebSocketHft

open WebSocketHft.Memory

inductive SSLBackend where
  | secureTransport
  | openSSL
  deriving DecidableEq, Repr

/-- The statuses of SecureTransport the code tells apart. -/
inductive OSStatus where
  | noErr
  | errSSLWouldBlock
  | errSSLClosedGraceful
  | errSSLClosedAbort
  | other
  deriving DecidableEq, Repr

structure SSLContext where
  backend : SSLBackend
  fd : ℤ
  readBufSize : ℕ
  lastNicTimestampNs : UInt64
  deriving DecidableEq, Repr

/-- One answer of the TLS library. `bytes` is what a read has ready, `count` what a
write takes, `want` whether a failed OpenSSL call only waits for the socket, and
`nic` the timestamp `ssl_read_func` found on the way. -/
structure TlsAnswer where
  status : OSStatus
  bytes : List UInt8
  count : ℕ
  want : Bool
  nic : Option UInt64
  deriving DecidableEq, Repr

/-- `ssl_init`; the argument is the backend that could be set up, if any. -/
def sslInit (backend : Option SSLBackend) : Option SSLContext :=
  backend.map fun backend => ⟨backend, -1, 64 * 1024, 0⟩

/-- `ssl_connect`: the context takes the descriptor before anything can fail. -/
def sslConnect (ctx : SSLContext) (fd : ℤ) (established : Bool) : ℤ × SSLContext :=
  if fd < 0 then (-1, ctx)
  else (if established then 0 else -1, { ctx with fd := fd })

/-- The descriptor `ssl_cleanup` passes to `close`, if it still holds one. -/
def sslCleanup (ctx : SSLContext) : Option ℤ :=
  if 0 ≤ ctx.fd then some ctx.fd else none

structure SslReadResult where
  ret : ℤ
  ctx : Option SSLContext
  ring : RingBuffer

/-- `ssl_read` on SecureTransport. The library stores its bytes at the write pointer
whatever the status; only `noErr` commits them. -/
def sslReadSecureTransport (ctx : SSLContext) (rb : RingBuffer) (answer : TlsAnswer) :
    SslReadResult :=
  let space := ringbufferWriteInline rb
  if space.len = 0 then ⟨0, some ctx, rb⟩
  else
    let requested := if space.len < ctx.readBufSize then space.len else ctx.readBufSize
    let stored := answer.bytes.take requested
    let actual := stored.length
    let ctx := { ctx with lastNicTimestampNs := answer.nic.getD ctx.lastNicTimestampNs }
    let rb := { rb with buf := store rb.buf space.data stored }
    if answer.status = .noErr ∧ 0 < actual then
      ⟨actual, some ctx, { rb with writePtr := (rb.writePtr + actual) % rb.size }⟩
    else if answer.status = .errSSLWouldBlock then ⟨0, some ctx, rb⟩
    else if answer.status = .errSSLClosedGraceful ∨ answer.status = .errSSLClosedAbort then
      ⟨-1, some { ctx with fd := -1 }, rb⟩
    else if answer.status = .noErr ∧ actual = 0 then ⟨-1, some { ctx with fd := -1 }, rb⟩
    else if answer.status ≠ .noErr ∧ answer.status ≠ .errSSLWouldBlock then
      ⟨-1, some { ctx with fd := -1 }, rb⟩
    else ⟨0, some ctx, rb⟩

/-- `ssl_read` on OpenSSL, which reports no bytes unless it succeeded. -/
def sslReadOpenSSL (ctx : SSLContext) (rb : RingBuffer) (answer : TlsAnswer) : SslReadResult :=
  let space := ringbufferWriteInline rb
  if space.len = 0 then ⟨0, some ctx, rb⟩
  else
    let stored := answer.bytes.take space.len
    let ret := stored.length
    let rb := { rb with buf := store rb.buf space.data stored }
    if 0 < ret then ⟨ret, some ctx, { rb with writePtr := (rb.writePtr + ret) % rb.size }⟩
    else if answer.want then ⟨0, some ctx, rb⟩
    else ⟨-1, some ctx, rb⟩

/-- `ssl_read`. -/
def sslRead (ctx : Option SSLContext) (rb : RingBuffer) (answer : TlsAnswer) : SslReadResult :=
  match ctx with
  | none => ⟨-1, none, rb⟩
  | some ctx =>
    match ctx.backend with
    | .secureTransport => sslReadSecureTransport ctx rb answer
    | .openSSL => sslReadOpenSSL ctx rb answer

/-- The bytes `ssl_write` offers: the inline pointer and length go to the library as they
are. -/
def sslOffered (rb : RingBuffer) : List UInt8 :=
  let data := ringbufferReadInline rb
  load rb.buf data.data data.len

structure SslWriteResult where
  ret : ℤ
  sent : List UInt8
  ring : RingBuffer

/-- `ssl_write`. -/
def sslWrite (ctx : Option SSLContext) (rb : RingBuffer) (answer : TlsAnswer) : SslWriteResult :=
  match ctx with
  | none => ⟨-1, [], rb⟩
  | some ctx =>
    let data := ringbufferReadInline rb
    if data.len = 0 then ⟨0, [], rb⟩
    else
      let written := min answer.count data.len
      let sent := (sslOffered rb).take written
      let advanced := { rb with readPtr := (rb.readPtr + written) % rb.size }
      match ctx.backend with
      | .secureTransport =>
        if answer.status = .noErr ∧ 0 < written then ⟨written, sent, advanced⟩
        else if answer.status = .errSSLWouldBlock then ⟨0, sent, rb⟩
        else ⟨-1, [], rb⟩
      | .openSSL =>
        if 0 < written then ⟨written, sent, advanced⟩
        else if answer.want then ⟨0, [], rb⟩
        else ⟨-1, [], rb⟩

/-- `ssl_is_handshake_complete`; `finished` is what `SSL_is_init_finished` says. -/
def sslIsHandshakeComplete (ctx : Option SSLContext) (finished : Bool) : Bool :=
  match ctx with
  | none => false
  | some ctx =>
    match ctx.backend with
    | .secureTransport => true
    | .openSSL => finished

/-- `ssl_get_last_nic_timestamp_ns`. -/
def sslGetLastNicTimestampNs (ctx : Option SSLContext) : UInt64 :=
  match ctx with
  | none => 0
  | some ctx => ctx.lastNicTimestampNs

end WebSocketHft
