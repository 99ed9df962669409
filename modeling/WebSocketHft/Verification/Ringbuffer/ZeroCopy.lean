import WebSocketHft.Model.IoKqueue
import WebSocketHft.Verification.Ringbuffer.Equations

/-! # Receiving straight into the ring

`ringbuffer_write_inline` offers one linear piece, and the reader of a socket
commits what was stored there. As long as the piece leaves the reserved byte
free this is producing; a read that takes all of it moves the write pointer onto
the read pointer. -/

namespace WebSocketHft

open WebSocketHft.Memory WebSocketHft.Circular

/-! ## The offered piece -/

theorem writeInline_data (rb : RingBuffer) : (ringbufferWriteInline rb).data = rb.writePtr := by
  unfold ringbufferWriteInline
  split_ifs <;> rfl

/-- The offered piece ends at the end of the buffer or at the read pointer. -/
theorem writeInline_len {rb : RingBuffer} (h : rb.Valid) :
    (ringbufferWriteInline rb).len =
      if rb.readPtr ≤ rb.writePtr then rb.size - rb.writePtr else rb.readPtr - rb.writePtr := by
  have hw := h.writePtr_lt
  unfold ringbufferWriteInline
  by_cases hle : rb.readPtr ≤ rb.writePtr
  · have hfull : ¬(rb.readPtr = 0 ∧ rb.writePtr = rb.size) := by omega
    rw [if_pos hle, if_neg hfull, if_pos hle]
  · rw [if_neg hle, if_neg hle]

theorem writePtr_add_le {rb : RingBuffer} (h : rb.Valid) {n : ℕ}
    (hn : n ≤ (ringbufferWriteInline rb).len) : rb.writePtr + n ≤ rb.size := by
  have hr := h.readPtr_lt
  have hw := h.writePtr_lt
  rw [writeInline_len h] at hn
  split at hn <;> omega

/-- A read that does not fit in the writeable space ends on the read pointer. -/
theorem writePtr_add_mod_eq {rb : RingBuffer} (h : rb.Valid) {n : ℕ}
    (hn : n ≤ (ringbufferWriteInline rb).len) (hover : ringbufferWriteable rb < n) :
    (rb.writePtr + n) % rb.size = rb.readPtr := by
  have hr := h.readPtr_lt
  have hw := h.writePtr_lt
  have hle := writePtr_add_le h hn
  rw [writeInline_len h] at hn
  simp only [ringbufferWriteable, spaceAvailable] at hover
  rw [add_mod_eq_ite hw (by omega)]
  split_ifs at hn hover ⊢ <;> omega

/-! ## Committing -/

/-- What `io_read` and `ssl_read` leave behind: the bytes at the write pointer and the
pointer behind them. -/
theorem produce_eq_store {rb : RingBuffer} {bytes : List UInt8}
    (hfit : rb.writePtr + bytes.length ≤ rb.size) :
    rb.produce bytes =
      { rb with
        buf := store rb.buf rb.writePtr bytes
        writePtr := (rb.writePtr + bytes.length) % rb.size } := by
  rw [RingBuffer.produce, circularStore, if_pos hfit]

theorem commitReceived_eq {rb : RingBuffer} (h : rb.Valid) {n : ℕ} :
    commitReceived rb n = { rb with writePtr := (rb.writePtr + n) % rb.size } := by
  have hw := h.writePtr_lt
  unfold commitReceived
  by_cases hwrap : rb.size ≤ rb.writePtr + n
  · have hpos : n - (rb.size - rb.writePtr) = rb.writePtr + n - rb.size := by omega
    simp only [if_pos hwrap, hpos, Nat.mod_eq_sub_mod hwrap]
  · simp only [if_neg hwrap]

/-- A successful `io_read` produces the bytes `recvmsg` has stored. -/
theorem ioRead_received {ctx : IOContext} {idx : ℕ} {sock : IOSocket} {rb : RingBuffer}
    (h : rb.Valid) (hslot : ctx.sockets[idx]? = some sock) (hfd : 0 ≤ sock.fd)
    {bytes : List UInt8} (nic : Option UInt64) (hpos : 1 ≤ bytes.length)
    (hle : bytes.length ≤ (ringbufferWriteInline rb).len) :
    (ioRead (some ctx) idx rb (.received bytes nic)).ret = bytes.length ∧
      (ioRead (some ctx) idx rb (.received bytes nic)).ring = rb.produce bytes := by
  have hspace : (ringbufferWriteInline rb).len ≠ 0 := by omega
  have htake : bytes.take (ringbufferWriteInline rb).len = bytes := List.take_of_length_le hle
  have hne : bytes ≠ [] := List.length_pos_iff.mp hpos
  have hidx : ¬((idx : ℤ) < 0) := by omega
  have hvalid : RingBuffer.Valid { rb with buf := store rb.buf rb.writePtr bytes } :=
    ⟨h.readPtr_lt, h.writePtr_lt⟩
  simp only [ioRead, hidx, if_false, Int.toNat_natCast, hslot, not_lt.mpr hfd, hspace, htake,
    List.length_eq_zero_iff, hne, writeInline_data]
  refine ⟨trivial, ?_⟩
  rw [commitReceived_eq hvalid, produce_eq_store (writePtr_add_le h hle)]

/-- A read that takes the whole offered piece although the reserved byte is in it empties
the ring. -/
theorem produce_over {rb : RingBuffer} (h : rb.Valid) {bytes : List UInt8}
    (hle : bytes.length ≤ (ringbufferWriteInline rb).len)
    (hover : ringbufferWriteable rb < bytes.length) :
    ringbufferReadable (rb.produce bytes) = 0 ∧ (rb.produce bytes).queue = [] := by
  have hptr : (rb.produce bytes).readPtr = (rb.produce bytes).writePtr :=
    (writePtr_add_mod_eq h hle hover).symm
  have hnil := queue_eq_nil_of_ptr_eq hptr
  refine ⟨?_, hnil⟩
  rw [← length_queue, hnil, List.length_nil]

/-- Producing into the offered piece is lossless exactly when the bytes fit in the
writeable space. -/
theorem produce_lossless_iff {rb : RingBuffer} (h : rb.Valid) {bytes : List UInt8}
    (hpos : 1 ≤ bytes.length) (hle : bytes.length ≤ (ringbufferWriteInline rb).len) :
    (rb.produce bytes).queue = rb.queue ++ bytes ↔ bytes.length ≤ ringbufferWriteable rb := by
  refine ⟨?_, queue_produce h bytes⟩
  intro hqueue
  by_contra hover
  have hempty := (produce_over h hle (not_le.mp hover)).2
  rw [hempty] at hqueue
  have hlen := congrArg List.length hqueue
  simp only [List.length_nil, List.length_append] at hlen
  omega

/-! ## `io_read` -/

/-- For every ring, every socket slot and every read of at most the offered length: the
queue grows by exactly the received bytes if and only if they fit in the writeable
space. -/
theorem io_read_lossless_iff (ctx : IOContext) (idx : ℕ) (sock : IOSocket) (rb : RingBuffer)
    (bytes : List UInt8) (nic : Option UInt64) (h : rb.Valid)
    (hslot : ctx.sockets[idx]? = some sock) (hfd : 0 ≤ sock.fd) (hpos : 1 ≤ bytes.length)
    (hle : bytes.length ≤ (ringbufferWriteInline rb).len) :
    ((ioRead (some ctx) idx rb (.received bytes nic)).ring.queue = rb.queue ++ bytes ∧
        ringbufferReadable (ioRead (some ctx) idx rb (.received bytes nic)).ring =
          ringbufferReadable rb + bytes.length ∧
        ringbufferReadable (ioRead (some ctx) idx rb (.received bytes nic)).ring ≠ 0) ↔
      bytes.length ≤ ringbufferWriteable rb := by
  rw [(ioRead_received h hslot hfd nic hpos hle).2]
  constructor
  · rintro ⟨hqueue, -, -⟩
    exact (produce_lossless_iff h hpos hle).mp hqueue
  · intro hfit
    have hread := readable_produce h bytes hfit
    exact ⟨queue_produce h bytes hfit, hread, by omega⟩

/-- Two bytes behind a queue of one, in a ring of four. -/
theorem io_read_lossless_two_bytes :
    (ioRead (some ⟨none, [⟨3, 0⟩]⟩) 0 ⟨fun _ => 9, 4, 0, 1⟩ (.received [1, 2] none)).ring.queue =
      [9, 1, 2] :=
  ((io_read_lossless_iff ⟨none, [⟨3, 0⟩]⟩ 0 ⟨3, 0⟩ ⟨fun _ => 9, 4, 0, 1⟩ [1, 2] none
    ⟨by decide, by decide⟩ rfl (by decide) (by decide) (by decide)).mpr (by decide)).1

/-- The ring as `ringbuffer_init` leaves it, after a first read of all bytes but one. -/
def nearlyFullRing : RingBuffer :=
  ringbufferInit.produce (List.replicate (ringbufferSize - 1) 0x41)

/-- From a fresh ring, a read of all bytes but one and then a read of the one byte that
`ringbuffer_write_inline` still offers: the ring looks empty and everything is lost. -/
theorem io_read_last_byte_empties_ring :
    (ioRead (some ⟨none, [⟨3, 0⟩]⟩) 0 ringbufferInit
        (.received (List.replicate (ringbufferSize - 1) 0x41) none)).ring = nearlyFullRing ∧
      nearlyFullRing.queue = List.replicate (ringbufferSize - 1) 0x41 ∧
      (ringbufferWriteInline nearlyFullRing).len = 1 ∧
      (ioRead (some ⟨none, [⟨3, 0⟩]⟩) 0 nearlyFullRing (.received [0x42] none)).ring.queue = [] ∧
      (ioRead (some ⟨none, [⟨3, 0⟩]⟩) 0 nearlyFullRing (.received [0x42] none)).ring.queue ≠
        nearlyFullRing.queue ++ [0x42] := by
  have hinit : ringbufferInit.Valid := ⟨by decide, by decide⟩
  have hlen : (List.replicate (ringbufferSize - 1) (0x41 : UInt8)).length = ringbufferSize - 1 :=
    List.length_replicate
  have hslot : (⟨none, [⟨3, 0⟩]⟩ : IOContext).sockets[0]? = some ⟨3, 0⟩ := rfl
  have hspace : ringbufferWriteable ringbufferInit = ringbufferSize - 1 := by decide
  have hoffer : (ringbufferWriteInline ringbufferInit).len = ringbufferSize := by decide
  have hfirst := (ioRead_received hinit hslot (by decide) none
    (by rw [hlen]; decide) (by rw [hlen, hoffer]; decide)).2
  have hqueue := queue_produce hinit (List.replicate (ringbufferSize - 1) 0x41)
    (by rw [hlen, hspace])
  have hvalid : nearlyFullRing.Valid := hinit.produce _
  have hwp : nearlyFullRing.writePtr = ringbufferSize - 1 := by
    rw [nearlyFullRing, produce_writePtr, hlen]
    decide
  have hrp : nearlyFullRing.readPtr = 0 := rfl
  have hsize : nearlyFullRing.size = ringbufferSize := rfl
  have hone : (ringbufferWriteInline nearlyFullRing).len = 1 := by
    rw [writeInline_len hvalid, hwp, hrp, hsize]
    decide
  have hle : ([0x42] : List UInt8).length ≤ (ringbufferWriteInline nearlyFullRing).len := hone.ge
  have hover : ringbufferWriteable nearlyFullRing < ([0x42] : List UInt8).length := by
    rw [ringbufferWriteable, hwp, hrp, hsize]
    decide
  have hlast : (ioRead (some ⟨none, [⟨3, 0⟩]⟩) 0 nearlyFullRing (.received [0x42] none)).ring.queue
      = [] := by
    have hread : (ioRead (some ⟨none, [⟨3, 0⟩]⟩) (0 : ℕ) nearlyFullRing
        (.received [0x42] none)).ring = nearlyFullRing.produce [0x42] :=
      (ioRead_received hvalid hslot (by decide) none (by decide) hle).2
    exact (congrArg RingBuffer.queue hread).trans (produce_over hvalid hle hover).2
  refine ⟨hfirst, ?_, hone, hlast, ?_⟩
  · exact hqueue.trans (by rw [queue_eq_nil_of_ptr_eq rfl]; rfl)
  · rw [hlast]
    exact (List.append_ne_nil_of_right_ne_nil _ (List.cons_ne_nil _ _)).symm

end WebSocketHft
