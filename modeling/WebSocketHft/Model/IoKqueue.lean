import WebSocketHft.Model.Ringbuffer

/-! # Socket I/O of `io_kqueue.c`

The kernel is a partner that answers calls: what `recvmsg` stores, how much
`writev` takes and which events `kevent` delivers are arguments. Of the kqueue
only the read filters are kept, as a map from descriptors to their `udata`. -/

namespace WebSocketHft

open WebSocketHft.Memory

/-- `IO_MAX_SOCKETS`. -/
def ioMaxSockets : ℕ := 64

/-- A registry slot. Its ring pointers always lead to the two rings of the owner. -/
structure IOSocket where
  fd : ℤ
  lastNicTimestampNs : UInt64
  deriving DecidableEq, Repr

/-- The registry in use is `sockets[0 .. socket_count)`; `kq` is `none` when it is `-1`. -/
structure IOContext where
  kq : Option (ℤ → Option ℕ)
  sockets : List IOSocket

/-- Which filter an event is for. -/
inductive Filter where
  | read
  | write
  deriving DecidableEq, Repr

/-- What `recvmsg` answers: bytes together with the timestamp of a control message, or an error. -/
inductive RecvResult where
  | received (bytes : List UInt8) (nic : Option UInt64)
  | failed
  deriving DecidableEq, Repr

/-- A delivered event. A read event carries what `recvmsg` will answer for it. -/
structure KEvent where
  ident : ℤ
  udata : ℕ
  eof : Bool
  error : Bool
  filter : Filter
  recv : RecvResult
  deriving DecidableEq, Repr

/-! ## The registry -/

/-- `kevent` with `EV_ADD` for the read filter of `fd`. -/
def addFilter (kq : Option (ℤ → Option ℕ)) (fd : ℤ) (udata : ℕ) : Option (ℤ → Option ℕ) :=
  kq.map fun filters => Function.update filters fd (some udata)

/-- `kevent` with `EV_DELETE` for the read filter of `fd`. -/
def deleteFilter (kq : Option (ℤ → Option ℕ)) (fd : ℤ) : Option (ℤ → Option ℕ) :=
  kq.map fun filters => Function.update filters fd none

/-- `io_init`; `created` says whether `kqueue()` succeeded. -/
def ioInit (created : Bool) : Option IOContext :=
  if created then some ⟨some fun _ => none, []⟩ else none

/-- `io_add_socket`; `configured` is the outcome of the two `fcntl` calls and
`registered` that of `kevent`. The slot is rolled back when the latter fails. -/
def ioAddSocket (ctx : IOContext) (fd : ℤ) (configured registered : Bool) : ℤ × IOContext :=
  if fd < 0 ∨ ioMaxSockets ≤ ctx.sockets.length then (-1, ctx)
  else if configured = false then (-1, ctx)
  else
    let idx := ctx.sockets.length
    if registered = false then (-1, ctx)
    else (idx, ⟨addFilter ctx.kq fd idx, ctx.sockets ++ [⟨fd, 0⟩]⟩)

/-- `io_remove_socket`: the last slot moves into the freed one. -/
def ioRemoveSocket (ctx : IOContext) (fd : ℤ) : ℤ × IOContext :=
  if fd < 0 then (-1, ctx)
  else
    let idx := ctx.sockets.findIdx (·.fd = fd)
    if ctx.sockets.length ≤ idx then (-1, ctx)
    else
      let kq := deleteFilter ctx.kq fd
      match ctx.sockets.getLast? with
      | none => (-1, ctx)
      | some last =>
        if idx < ctx.sockets.length - 1 then
          (0, ⟨addFilter kq last.fd idx, (ctx.sockets.set idx last).dropLast⟩)
        else (0, ⟨kq, ctx.sockets.dropLast⟩)

/-- The loop of `io_cleanup` from slot `i` on: its calls of `io_remove_socket`, as the descriptor
and what is returned, and the context afterwards. `left` is no less than the slots ahead. -/
def cleanupLoop : ℕ → ℕ → IOContext → List (ℤ × ℤ) × IOContext
  | 0, _, ctx => ([], ctx)
  | left + 1, i, ctx =>
    match ctx.sockets[i]? with
    | none => ([], ctx)
    | some sock =>
      if sock.fd ≠ -1 then
        let removed := ioRemoveSocket ctx sock.fd
        let rest := cleanupLoop left (i + 1) removed.2
        ((sock.fd, removed.1) :: rest.1, rest.2)
      else cleanupLoop left (i + 1) ctx

/-- `io_cleanup`: the calls it makes before the kqueue is closed, and the context it leaves. -/
def ioCleanup (ctx : IOContext) : List (ℤ × ℤ) × IOContext :=
  ((cleanupLoop ctx.sockets.length 0 ctx).1, ⟨none, []⟩)

/-- `kevent` delivers an event: a one-shot read filter is gone once it fired. -/
def deliverEvent (kq : Option (ℤ → Option ℕ)) (ev : KEvent) : Option (ℤ → Option ℕ) :=
  match ev.filter with
  | .read => deleteFilter kq ev.ident
  | .write => kq

/-- One round of the loop in `io_poll`: the filter is added again for the slot that the event
names. -/
def rearm (ctx : IOContext) (ev : KEvent) : IOContext :=
  match ctx.sockets[ev.udata]? with
  | some sock => { ctx with kq := addFilter ctx.kq sock.fd ev.udata }
  | none => ctx

/-- `io_poll`; `none` is a failing `kevent`. -/
def ioPoll (ctx : IOContext) (events : Option (List KEvent)) : ℤ × IOContext :=
  match events with
  | none => (-1, ctx)
  | some events =>
    (events.length, events.foldl rearm { ctx with kq := events.foldl deliverEvent ctx.kq })

/-! ## Reading and writing -/

/-- The pointer update at the end of `io_read`, with its own treatment of the wrap. -/
def commitReceived (rb : RingBuffer) (n : ℕ) : RingBuffer :=
  let newWp := rb.writePtr + n
  let newWp := if rb.size ≤ newWp then n - (rb.size - rb.writePtr) else newWp
  { rb with writePtr := newWp % rb.size }

structure IoReadResult where
  ret : ℤ
  ctx : Option IOContext
  ring : RingBuffer

/-- `io_read` on the ring its slot points to. -/
def ioRead (ctx : Option IOContext) (socketIndex : ℤ) (rb : RingBuffer) (recv : RecvResult) :
    IoReadResult :=
  match ctx with
  | none => ⟨-1, none, rb⟩
  | some ctx =>
    if socketIndex < 0 then ⟨-1, some ctx, rb⟩
    else
      match ctx.sockets[socketIndex.toNat]? with
      | none => ⟨-1, some ctx, rb⟩
      | some sock =>
        if sock.fd < 0 then ⟨-1, some ctx, rb⟩
        else
          let space := ringbufferWriteInline rb
          if space.len = 0 then ⟨0, some ctx, rb⟩
          else
            match recv with
            | .failed => ⟨-1, some ctx, rb⟩
            | .received bytes nic =>
              let stored := bytes.take space.len
              if stored.length = 0 then ⟨-1, some ctx, rb⟩
              else
                let sock := { sock with lastNicTimestampNs := nic.getD sock.lastNicTimestampNs }
                ⟨stored.length,
                  some { ctx with sockets := ctx.sockets.set socketIndex.toNat sock },
                  commitReceived { rb with buf := store rb.buf space.data stored } stored.length⟩

/-- The pieces `io_write` hands to `writev`, two when the data runs past the end of the
buffer. -/
def iovecs (rb : RingBuffer) : List Span :=
  let data := ringbufferReadInline rb
  if rb.size < rb.readPtr + data.len then
    let first := rb.size - rb.readPtr
    [⟨data.data, first⟩, ⟨0, data.len - first⟩]
  else [data]

/-- The bytes `io_write` offers: those of the pieces, one after the other. -/
def ioOffered (rb : RingBuffer) : List UInt8 :=
  (iovecs rb).flatMap fun piece => load rb.buf piece.data piece.len

structure IoWriteResult where
  ret : ℤ
  sent : List UInt8
  ring : RingBuffer

/-- `io_write`; `accepted` is the number of bytes `writev` takes of the one or two
pieces it is offered, `none` when it fails. -/
def ioWrite (ctx : Option IOContext) (socketIndex : ℤ) (rb : RingBuffer) (accepted : Option ℕ) :
    IoWriteResult :=
  match ctx with
  | none => ⟨-1, [], rb⟩
  | some ctx =>
    if socketIndex < 0 then ⟨-1, [], rb⟩
    else
      match ctx.sockets[socketIndex.toNat]? with
      | none => ⟨-1, [], rb⟩
      | some sock =>
        if sock.fd < 0 then ⟨-1, [], rb⟩
        else
          let data := ringbufferReadInline rb
          if data.len = 0 then ⟨0, [], rb⟩
          else
            let offered := ioOffered rb
            match accepted with
            | none => ⟨-1, [], rb⟩
            | some k =>
              let n := min k data.len
              if n = 0 then ⟨0, [], rb⟩
              else ⟨n, offered.take n, { rb with readPtr := (rb.readPtr + n) % rb.size }⟩

/-- `io_get_last_nic_timestamp_ns`. -/
def ioGetLastNicTimestampNs (ctx : Option IOContext) (socketIndex : ℤ) : UInt64 :=
  match ctx with
  | none => 0
  | some ctx =>
    if socketIndex < 0 then 0
    else
      match ctx.sockets[socketIndex.toNat]? with
      | none => 0
      | some sock => sock.lastNicTimestampNs

end WebSocketHft
