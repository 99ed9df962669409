import WebSocketHft.Shared.Circular

/-! # The ring buffer of `ringbuffer.c` and `ringbuffer.h`

`buf` is the memory seen from the pointer `rb->buf`: the cells below `size` are
the buffer, the cells from `size` on are whatever lies behind it. Positions are
below `size` and every sum the code forms stays below `2 * size`, so `size_t`
arithmetic on them is exact. -/

namespace WebSocketHft

open WebSocketHft.Memory WebSocketHft.Circular

structure RingBuffer where
  buf : ℕ → UInt8
  size : ℕ
  readPtr : ℕ
  writePtr : ℕ

/-- `RINGBUFFER_SIZE`. -/
def ringbufferSize : ℕ := 8 * 1024 * 1024

/-- `RINGBUFFER_ALIGNMENT`; the allocation is this much longer than the buffer. -/
def ringbufferAlignment : ℕ := 128

/-- A ring of the given size over freshly allocated, zeroed memory. -/
def RingBuffer.fresh (size : ℕ) : RingBuffer :=
  ⟨fun _ => 0, size, 0, 0⟩

/-- `ringbuffer_init` after a successful `vm_allocate`. -/
def ringbufferInit : RingBuffer := RingBuffer.fresh ringbufferSize

/-- `ringbuffer_cleanup` leaves a zeroed structure. -/
def ringbufferCleanup : RingBuffer := RingBuffer.fresh 0

structure WriteResult where
  ret : ℕ
  ring : RingBuffer

structure ReadResult where
  ret : ℕ
  bytes : List UInt8
  ring : RingBuffer

/-! ## Space and data between the two pointers -/

/-- The free space the producers compute; one byte stays reserved so that a full
ring differs from an empty one. -/
def spaceAvailable (size rp wp : ℕ) : ℕ :=
  if rp ≤ wp then
    let available := size - wp + rp
    if 1 < available then available - 1 else 0
  else rp - wp - 1

/-- The data the consumers see. -/
def dataAvailable (size rp wp : ℕ) : ℕ :=
  if rp ≤ wp then wp - rp else size - rp + wp

/-- `ringbuffer_writeable`. -/
def ringbufferWriteable (rb : RingBuffer) : ℕ :=
  spaceAvailable rb.size rb.readPtr rb.writePtr

/-- `ringbuffer_readable`. -/
def ringbufferReadable (rb : RingBuffer) : ℕ :=
  dataAvailable rb.size rb.readPtr rb.writePtr

/-! ## Copying operations -/

/-- `ringbuffer_write`; `none` is a `NULL` source, otherwise the source holds
exactly the `len` bytes of the call. -/
def ringbufferWrite (rb : RingBuffer) (data : Option (List UInt8)) : WriteResult :=
  match data with
  | none => ⟨0, rb⟩
  | some data =>
    if data.length = 0 then ⟨0, rb⟩
    else
      let available := spaceAvailable rb.size rb.readPtr rb.writePtr
      if available = 0 then ⟨0, rb⟩
      else
        let toWrite := if data.length < available then data.length else available
        ⟨toWrite, { rb with
          buf := circularStore rb.size rb.buf rb.writePtr (data.take toWrite)
          writePtr := (rb.writePtr + toWrite) % rb.size }⟩

/-- `ringbuffer_read`; `dest` says whether the destination pointer is non-`NULL`. -/
def ringbufferRead (rb : RingBuffer) (dest : Bool) (len : ℕ) : ReadResult :=
  if dest = false ∨ len = 0 then ⟨0, [], rb⟩
  else
    let available := dataAvailable rb.size rb.readPtr rb.writePtr
    if available = 0 then ⟨0, [], rb⟩
    else
      let toRead := if len < available then len else available
      ⟨toRead, circularLoad rb.size rb.buf rb.readPtr toRead,
        { rb with readPtr := (rb.readPtr + toRead) % rb.size }⟩

/-- `ringbuffer_reset`. -/
def ringbufferReset (rb : RingBuffer) : RingBuffer :=
  { rb with readPtr := 0, writePtr := 0 }

/-! ## Batch operations -/

/-- What a batch loop works on: the memory of the ring, the pointer it moves (a private
copy until the end of the call) and the bytes moved so far. -/
structure BatchState where
  buf : ℕ → UInt8
  ptr : ℕ
  total : ℕ

/-- The loop of `ringbuffer_batch_write` over the chunks; `none` is a `NULL` pointer. -/
def batchWriteLoop (size rp : ℕ) : List (Option (List UInt8)) → BatchState → BatchState
  | [], s => s
  | none :: chunks, s => batchWriteLoop size rp chunks s
  | some data :: chunks, s =>
    if data.length = 0 then batchWriteLoop size rp chunks s
    else
      let available := spaceAvailable size rp s.ptr
      if available = 0 then s
      else
        let toWrite := if data.length < available then data.length else available
        batchWriteLoop size rp chunks
          { buf := circularStore size s.buf s.ptr (data.take toWrite)
            ptr := (s.ptr + toWrite) % size
            total := s.total + toWrite }

/-- `ringbuffer_batch_write`. -/
def ringbufferBatchWrite (rb : RingBuffer) (chunks : List (Option (List UInt8))) : WriteResult :=
  let s := batchWriteLoop rb.size rb.readPtr chunks ⟨rb.buf, rb.writePtr, 0⟩
  ⟨s.total, { rb with
    buf := s.buf
    writePtr := if 0 < s.total then s.ptr else rb.writePtr }⟩

/-- A destination of `ringbuffer_batch_read`: is the pointer non-`NULL`, and its length. -/
structure Destination where
  dest : Bool
  len : ℕ
  deriving DecidableEq, Repr

/-- What a destination has received, for each one, with the total and the ring. -/
structure BatchReadResult where
  ret : ℕ
  pieces : List (List UInt8)
  ring : RingBuffer

/-- The loop of `ringbuffer_batch_read`; the destinations after the `break` receive nothing. -/
def batchReadLoop (size wp : ℕ) : List Destination → BatchState → List (List UInt8) × BatchState
  | [], s => ([], s)
  | d :: dests, s =>
    if d.dest = false ∨ d.len = 0 then
      let r := batchReadLoop size wp dests s
      ([] :: r.1, r.2)
    else
      let available := dataAvailable size s.ptr wp
      if available = 0 then ((d :: dests).map fun _ => [], s)
      else
        let toRead := if d.len < available then d.len else available
        let r := batchReadLoop size wp dests
          { s with ptr := (s.ptr + toRead) % size, total := s.total + toRead }
        (circularLoad size s.buf s.ptr toRead :: r.1, r.2)

/-- `ringbuffer_batch_read`. -/
def ringbufferBatchRead (rb : RingBuffer) (dests : List Destination) : BatchReadResult :=
  let r := batchReadLoop rb.size rb.writePtr dests ⟨rb.buf, rb.readPtr, 0⟩
  ⟨r.2.total, r.1, { rb with readPtr := if 0 < r.2.total then r.2.ptr else rb.readPtr }⟩

/-! ## Inline access -/

/-- A pointer into the ring, as an offset from `rb->buf`, and the length reported with it. -/
structure Span where
  data : ℕ
  len : ℕ
  deriving DecidableEq, Repr

/-- `ringbuffer_read_inline`: the length counts the wrapped part as well. -/
def ringbufferReadInline (rb : RingBuffer) : Span :=
  ⟨rb.readPtr, dataAvailable rb.size rb.readPtr rb.writePtr⟩

/-- `ringbuffer_write_inline`: a free-space figure of its own, with no reserved byte. -/
def ringbufferWriteInline (rb : RingBuffer) : Span :=
  if rb.readPtr ≤ rb.writePtr then
    if rb.readPtr = 0 ∧ rb.writePtr = rb.size then ⟨rb.writePtr, 0⟩
    else ⟨rb.writePtr, rb.size - rb.writePtr⟩
  else ⟨rb.writePtr, rb.readPtr - rb.writePtr⟩

/-! ## The queue a ring holds -/

/-- The readable bytes, in order. -/
def RingBuffer.queue (rb : RingBuffer) : List UInt8 :=
  window rb.buf rb.size rb.readPtr (ringbufferReadable rb)

/-- The bytes that lie in memory behind the read pointer, as many as are readable.
This is what a consumer sees that takes the inline pointer and length as they are. -/
def RingBuffer.linear (rb : RingBuffer) : List UInt8 :=
  load rb.buf rb.readPtr (ringbufferReadable rb)

/-- Both pointers are positions of the buffer. -/
structure RingBuffer.Valid (rb : RingBuffer) : Prop where
  readPtr_lt : rb.readPtr < rb.size
  writePtr_lt : rb.writePtr < rb.size

/-- The readable region does not run past the end of the buffer. -/
def RingBuffer.Unwrapped (rb : RingBuffer) : Prop :=
  rb.readPtr + ringbufferReadable rb ≤ rb.size

instance (rb : RingBuffer) : Decidable rb.Unwrapped :=
  inferInstanceAs (Decidable (_ ≤ _))

end WebSocketHft
